import LiveMarkup.Template.Settings
import LiveMarkup.View.Document
import LiveMarkup.View.Merge

/-!
# Views

A view shows a template below a host element of a document.  Its model is merged with new data, the
template is rendered again, and the host is patched to match.

Main definitions:

- `ViewConfig`: the tag of the host.
- `View`: a template, a model and a host.
- `ViewError`: why an operation fails.
- `View.create`: a view with a new host.
- `View.update`, `View.define`, `View.patch`: changing what is shown.
- `View.render`, `View.destroy`: putting the host into the tree and taking it out.
-/

namespace LiveMarkup

/-! ## Settings -/

/-- The settings of a view. -/
structure ViewConfig where
  hostTag : String := "div"
  deriving DecidableEq, Repr

namespace ViewConfig

/-- Whether a text can be the tag of a host: letters, digits and hyphens. -/
def isHostTag (tag : String) : Bool :=
  tag != "" && tag.toList.all fun c => c.isAlphanum || c == '-'

/-- Settings with a usable tag in lower case. -/
def sanitized (config : ViewConfig) : ViewConfig :=
  let tag := if isHostTag config.hostTag then config.hostTag else "div"
  { hostTag := String.map Char.toLower tag }

/-- The view settings in a JSON record; the tag must be given. -/
def ofJson? (j : Json) : Option ViewConfig :=
  match j.record? ["host_tag"] with
  | some [tag] => (Json.setting? Json.text? none tag).map fun hostTag => { hostTag }
  | _ => none

end ViewConfig

/-! ## Errors -/

/-- Why an operation on a view fails. -/
inductive ViewError where
  | notAParent (id : NodeId)
  | template (e : TemplateError)
  | patch (e : PatchError)
  | dom (e : DomError)
  deriving DecidableEq, Repr

namespace ViewError

/-- The wording of an error. -/
def message : ViewError → String
  | .notAParent id => "invalid argument: expecting an element parent, got " ++ id.text
  | .template e => "template error: " ++ e.message
  | .patch e => "patch error: " ++ e.message
  | .dom e => "dom error: " ++ e.message

/-- The wording of what lies behind an error. -/
def source? : ViewError → Option String
  | .notAParent _ => none
  | .template e => some e.message
  | .patch e => some e.message
  | .dom e => some e.message

/-- The error of a view for the error of its document. -/
def ofConverge : ConvergeError → ViewError
  | .patch e => .patch e
  | .dom e => .dom e

end ViewError

/-! ## Views -/

/-- A template shown below a host. -/
structure View where
  template : Template
  model : Scope
  host : NodeId

namespace View

/-- A view with a new host without parent, filled with the rendered template.  The host stays if
the rendered markup is refused. -/
def create (run : Behaviour) (helpers : Registry) (doc : Document) (template : Template)
    (model : Scope) (config : ViewConfig := {}) : Except ViewError View × Document :=
  let markup := template.render run helpers model
  let (host, dom) := doc.dom.createElement config.sanitized.hostTag
  match Dom.parseInto doc.parser dom host markup with
  | .ok (_, dom) => (.ok { template, model, host }, { doc with dom })
  | .error e => (.error (.dom e), { doc with dom })

/-- A view of a source, which is compiled first. -/
def ofSource (run : Behaviour) (helpers : Registry) (settings : TemplateConfig) (doc : Document)
    (source : TemplateSource) (model : Scope) (config : ViewConfig := {}) :
    Except ViewError View × Document :=
  match Template.compile settings source with
  | .error e => (.error (.template e), doc)
  | .ok template => create run helpers doc template model config

/-- Make the host match a source. -/
def patch (doc : Document) (v : View) (source : String) : Except ViewError Unit × Document :=
  match doc.converge v.host source with
  | (.ok (), doc) => (.ok (), doc)
  | (.error e, doc) => (.error (.ofConverge e), doc)

/-- Render the template and make the host match. -/
def refresh (run : Behaviour) (helpers : Registry) (doc : Document) (v : View) :
    Except ViewError Unit × Document :=
  v.patch doc (v.template.render run helpers v.model)

/-- Merge data into the model, render and make the host match.  The model keeps the data in any
case. -/
def update (run : Behaviour) (helpers : Registry) (doc : Document) (v : View) (data : Scope) :
    Except ViewError Unit × View × Document :=
  let v := { v with model := Scope.merge v.model data }
  let (result, doc) := v.refresh run helpers doc
  (result, v, doc)

/-- Compile another template, render and make the host match.  A template that does not compile
changes nothing; one that does stays in any case. -/
def define (run : Behaviour) (helpers : Registry) (doc : Document) (v : View)
    (source : TemplateSource) : Except ViewError Unit × View × Document :=
  match v.template.define source with
  | .error e => (.error (.template e), v, doc)
  | .ok template =>
    let v := { v with template }
    let (result, doc) := v.refresh run helpers doc
    (result, v, doc)

/-- Put the host at the end of the children of an element that does not contain it yet. -/
def render (doc : Document) (v : View) (parent : NodeId) : Except ViewError Document :=
  if !doc.dom.isElement parent then .error (.notAParent parent)
  else if doc.dom.contains parent v.host then .ok doc
  else
    match doc.dom.appendChild parent v.host with
    | .ok dom => .ok { doc with dom }
    | .error e => .error (.dom e)

/-- Take the host from its parent. -/
def destroy (doc : Document) (v : View) : Except ViewError Document :=
  match doc.dom.remove v.host with
  | .ok dom => .ok { doc with dom }
  | .error e => .error (.dom e)

/-- The markup below the host. -/
def markup (doc : Document) (v : View) : String :=
  doc.dom.innerMarkup v.host

end View
end LiveMarkup
