import LiveMarkup.Template.Render

/-!
# Templates

A template is compiled once, from a text or from a render function, and rendered any number of
times.  Helpers are looked up when it is rendered.

Main definitions:

- `TemplateConfig`: what malformed blocks do, and whether values are escaped.
- `TemplateSource`: what a template is compiled from.
- `Template.compile`, `Template.define`: compilation, and compilation in place of what was there.
- `Template.render`: the output for a scope.
-/

namespace LiveMarkup

/-- What a template with malformed blocks does. -/
inductive MalformedBlocks where
  /-- It does not compile. -/
  | error
  /-- It compiles and always renders nothing. -/
  | empty
  deriving DecidableEq, Repr

/-- The settings of compilation. -/
structure TemplateConfig where
  malformedBlocks : MalformedBlocks := .error
  escape : Bool := false
  deriving DecidableEq, Repr

/-- What a template is compiled from: a text, or a function of the scope and the helpers. -/
inductive TemplateSource where
  | text (text : String)
  | function (f : Scope → Registry → String)

/-- What a template does when it is rendered. -/
inductive Program where
  | segments (parts : List Segment)
  | function (f : Scope → Registry → String)
  | empty

/-- A compiled template. -/
structure Template where
  source : TemplateSource
  program : Program
  config : TemplateConfig

namespace TemplateSource

/-- The text of a source that has one. -/
def text? : TemplateSource → Option String
  | .text s => some s
  | .function _ => none

end TemplateSource

namespace Program

/-- The program of a source. -/
def build (config : TemplateConfig) : TemplateSource → Except TemplateError Program
  | .function f => .ok (.function f)
  | .text text =>
    match Segment.ofText text with
    | .ok parts => .ok (.segments parts)
    | .error (.malformedBlock fault offset) =>
      match config.malformedBlocks with
      | .empty => .ok .empty
      | .error => .error (.malformedBlock fault offset)
    | .error e => .error e

/-- The output of a program for a scope. -/
def render (run : Behaviour) (helpers : Registry) (escaped : Bool) (data : Scope) :
    Program → String
  | .segments parts => Render.join escaped (Render.segments run helpers data parts)
  | .function f => f data helpers
  | .empty => ""

end Program

namespace Template

/-- Compile a source. -/
def compile (config : TemplateConfig) (source : TemplateSource) :
    Except TemplateError Template :=
  match Program.build config source with
  | .ok program => .ok { source, program, config }
  | .error e => .error e

/-- Compile another source with the settings of a template. -/
def define (t : Template) (source : TemplateSource) : Except TemplateError Template :=
  compile t.config source

/-- The output of a template for a scope. -/
def render (run : Behaviour) (helpers : Registry) (t : Template) (data : Scope) : String :=
  t.program.render run helpers t.config.escape data

end Template
end LiveMarkup
