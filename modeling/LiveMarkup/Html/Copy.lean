import LiveMarkup.Html.Config
import LiveMarkup.Html.ParsedTree
import LiveMarkup.Markup.ParseError

/-!
# Copying parsed trees

A parsed tree is copied into a fragment, node by node in document order, up to the first element
that is nested too deeply.  What an element holds apart from its children becomes its children; the
wrappers at the top are not copied.  Document types and processing instructions become directives.

Main definitions:

- `Html.QualifiedName.text`: a name as one text.
- `Fragment.copyBelow`, `Fragment.copyAll`, `Fragment.copy`: the copy with a limit on how deep
  elements may be nested.
- `Fragment.ofParsed`: the fragment of a parsed document.
- `HtmlConfig.parserOver`: the parser over an algorithm that builds trees.
-/

namespace LiveMarkup

/-! ## Names -/

namespace Html

/-- A name as one text, with a colon after the prefix. -/
def QualifiedName.text (name : QualifiedName) : String :=
  match name.spacePrefix? with
  | some spacePrefix => spacePrefix ++ ":" ++ name.base
  | none => name.base

/-- The attribute with its name as one text. -/
def QualifiedAttribute.plain (a : QualifiedAttribute) : Attribute :=
  ⟨a.name.text, a.value⟩

/-- What stands in the directive of a document type. -/
def doctypeText (name : String) : String :=
  "!DOCTYPE " ++ name

/-- What stands in the directive of a processing instruction. -/
def instructionText (target contents : String) : String :=
  "?" ++ target ++ " " ++ contents

end Html

/-! ## Nodes -/

namespace Fragment

open Html

mutual

/-- Append what lies below a parsed node to a node that is `depth` elements deep. -/
def copyBelow (limit depth : Nat) (f : Fragment) (parent : Nat) :
    ParsedNode → Except ParseError Fragment
  | .node _ children => copyAll limit depth f parent children

/-- Append parsed nodes, one after the other.  The first element that would be more than `limit`
elements deep stops the copy. -/
def copyAll (limit depth : Nat) (f : Fragment) (parent : Nat) :
    List ParsedNode → Except ParseError Fragment
  | [] => .ok f
  | n :: rest => do copyAll limit depth (← copy limit depth f parent n) parent rest

/-- Append a parsed node with everything below it. -/
def copy (limit depth : Nat) (f : Fragment) (parent : Nat) :
    ParsedNode → Except ParseError Fragment
  | .node (.element name attrs contents?) children =>
    if limit ≤ depth then .error (.depthLimit limit name.base)
    else
      let (f, id) := f.appendElement parent name.base (attrs.map (·.plain))
      match contents? with
      | some contents => copyBelow limit (depth + 1) f id contents
      | none => copyAll limit (depth + 1) f id children
  | .node (.text contents) _ => .ok (f.appendText parent contents).1
  | .node (.comment contents) _ => .ok (f.appendComment parent contents).1
  | .node (.doctype name) _ => .ok (f.appendDirective parent (doctypeText name)).1
  | .node (.instruction target contents) _ =>
    .ok (f.appendDirective parent (instructionText target contents)).1
  | .node .document _ => .ok f

end

/-! ## Documents -/

/-- The fragment of a parsed document: what lies below the wrappers at its top. -/
def ofParsed (limit : Nat) (document : ParsedNode) : Except ParseError Fragment :=
  document.children.foldlM (fun f wrapper => copyBelow limit 0 f root wrapper) {}

end Fragment

/-- The parser with settings, over an algorithm that builds trees. -/
def HtmlConfig.parserOver (build : Html.TreeBuilder) (config : HtmlConfig) : MarkupParser :=
  fun markup => Fragment.ofParsed config.maxDepth (build config.context markup)

end LiveMarkup
