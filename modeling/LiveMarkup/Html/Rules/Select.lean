import LiveMarkup.Html.Rules.Body

/-!
# Rules for selections

Inside a selection only options, their groups, the lines between them and scripts count.

Main definitions:

- `Builder.inSelect`, `Builder.inSelectInTable`: the rules of the modes.
-/

namespace LiveMarkup
namespace Html
namespace Builder

/-- Close the innermost element if it has a name. -/
def popIf (b : Builder) (name : String) : Builder :=
  if b.currentIs (·.named name) then b.pop else b

/-- Whether a selection is open that only options and their groups are open in. -/
def inSelectScope (b : Builder) : Bool :=
  b.inScope Element.boundsSelect "select"

/-- End a selection. -/
def endSelect (b : Builder) : Step :=
  if b.inSelectScope then
    let b := b.close "select"
    b.go b.resetMode
  else b.done

/-- End a selection for a token that does not belong into it. -/
def leaveSelect (b : Builder) : Step :=
  let b := b.close "select"
  b.again b.resetMode

/-- The end tag of a group of options. -/
def endGroup (b : Builder) : Builder :=
  let b :=
    match b.stack with
    | option :: group :: _ =>
      if option.named "option" && group.named "optgroup" then b.pop else b
    | _ => b
  b.popIf "optgroup"

/-- The rules in a selection. -/
def inSelect (b : Builder) : Token → Step
  | .char c => (b.insertChar c).done
  | .comment data => (b.insertComment data).done
  | .startTag tag =>
    if tag.name = "option" then ((b.popIf "option").enter tag).done
    else if tag.name = "optgroup" then (((b.popIf "option").popIf "optgroup").enter tag).done
    else if tag.name = "hr" then (((b.popIf "option").popIf "optgroup").leaf tag).done
    else if tag.name = "select" then b.endSelect
    else if ["input", "keygen", "textarea"].contains tag.name then
      if b.inSelectScope then b.leaveSelect else b.done
    else if tag.name = "script" ∨ tag.name = "template" then b.metadata tag
    else b.done
  | .endTag name =>
    if name = "optgroup" then b.endGroup.done
    else if name = "option" then (b.popIf "option").done
    else if name = "select" then b.endSelect
    else if name = "template" then b.endTemplate.done
    else b.done
  | .eof => b.inBody .eof
  | _ => b.done

/-- The tags that end a selection in a table. -/
def tableTags : List String :=
  ["caption", "table", "tbody", "tfoot", "thead", "tr", "td", "th"]

/-- The rules in a selection in a table. -/
def inSelectInTable (b : Builder) : Token → Step
  | .startTag tag =>
    if tableTags.contains tag.name then b.leaveSelect else b.inSelect (.startTag tag)
  | .endTag name =>
    if tableTags.contains name then
      if b.inScope Element.boundsTable name then b.leaveSelect else b.done
    else b.inSelect (.endTag name)
  | t => b.inSelect t

end Builder
end Html
end LiveMarkup
