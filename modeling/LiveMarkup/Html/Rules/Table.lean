import LiveMarkup.Html.Rules.Body

/-!
# Rules for tables

What does not belong into a table goes before it, by the rules of bodies.  Text waits until it is
known whether it is blank: blank text stays in the table.

Main definitions:

- `Builder.foster`: the rules of bodies for what goes before the table.
- `Builder.inTable`, `Builder.inTableText`, `Builder.inCaption`, `Builder.inColumnGroup`,
  `Builder.inTableBody`, `Builder.inRow`, `Builder.inCell`: the rules of the modes.
-/

namespace LiveMarkup
namespace Html
namespace Builder

/-- Whether one of several elements is open in the innermost table. -/
def inTableScope (b : Builder) (names : List String) : Bool :=
  Html.inScope Element.boundsTable (·.among names) b.stack

/-- Close elements down to one of several. -/
def backTo (b : Builder) (names : List String) : Builder :=
  b.restack (closeTo (·.among names))

/-- The elements that may hold the parts of a table. -/
def tableContext : List String := ["table", "template", "html"]

/-- The elements that may hold rows. -/
def bodyContext : List String := ["tbody", "tfoot", "thead", "template", "html"]

/-- The elements that may hold cells. -/
def rowContext : List String := ["tr", "template", "html"]

/-- A token out of place in a table, by the rules of bodies. -/
def foster (b : Builder) (t : Token) : Step :=
  let (b, reply) := { b with fostering := true }.inBody t
  ({ b with fostering := false }, reply)

/-! ## Text -/

/-- A character in a table. -/
def tableChar (b : Builder) (t : Token) : Step :=
  if b.currentIs (·.among Element.tableParts) then { b with modeAfter := b.mode }.again .inTableText
  else b.foster t

/-- Put the text that waits where it belongs. -/
def settleText (b : Builder) : Builder :=
  let text := b.waiting.reverse
  let b := { b with waiting := [] }
  if text.all isBlank then text.foldl insertChar b
  else { text.foldl bodyChar { b with fostering := true } with fostering := false }

/-- The rules while text in a table is read. -/
def inTableText (b : Builder) : Token → Step
  | .char c => { b with waiting := c :: b.waiting }.done
  | .null => b.done
  | _ => b.settleText.again b.modeAfter

/-! ## Tables -/

/-- A start tag in a table. -/
def tableStart (b : Builder) (tag : StartTag) : Step :=
  let name := tag.name
  if name = "caption" then ((b.backTo tableContext).markFormatting.enter tag).go .inCaption
  else if name = "colgroup" then ((b.backTo tableContext).enter tag).go .inColumnGroup
  else if name = "col" then
    ((b.backTo tableContext).enterImplied "colgroup").again .inColumnGroup
  else if ["tbody", "tfoot", "thead"].contains name then
    ((b.backTo tableContext).enter tag).go .inTableBody
  else if ["td", "th", "tr"].contains name then
    ((b.backTo tableContext).enterImplied "tbody").again .inTableBody
  else if name = "table" then
    if b.inTableScope ["table"] then
      let b := b.close "table"
      b.again b.resetMode
    else b.done
  else if ["style", "script", "template"].contains name then b.metadata tag
  else if name = "input" ∧ isHidden tag then (b.leaf tag).done
  else if name = "form" then
    if b.isOpen "template" || b.form?.isSome then b.done
    else
      let (e, b) := b.insert .html name tag.attrs
      { b with form? := some e }.done
  else b.foster (.startTag tag)

/-- The rules in a table. -/
def inTable (b : Builder) : Token → Step
  | .char c => b.tableChar (.char c)
  | .null => b.tableChar .null
  | .comment data => (b.insertComment data).done
  | .startTag tag => b.tableStart tag
  | .endTag name =>
    if name = "table" then
      if b.inTableScope ["table"] then
        let b := b.close "table"
        b.go b.resetMode
      else b.done
    else if name = "template" then b.endTemplate.done
    else if ["body", "caption", "col", "colgroup", "html", "tbody", "td", "tfoot", "th", "thead",
        "tr"].contains name then b.done
    else b.foster (.endTag name)
  | .eof => b.inBody .eof
  | .nothing => b.done

/-! ## Captions and columns -/

/-- End a caption, and then a reply. -/
def endCaption (b : Builder) (reply : Builder → Step) : Step :=
  if b.inTableScope ["caption"] then reply (b.closeImplied.close "caption").clearFormatting
  else b.done

/-- The rules in a caption. -/
def inCaption (b : Builder) : Token → Step
  | .startTag tag =>
    if ["caption", "col", "colgroup", "tbody", "td", "tfoot", "th", "thead", "tr"].contains
        tag.name then b.endCaption fun b => b.again .inTable
    else b.inBody (.startTag tag)
  | .endTag name =>
    if name = "caption" then b.endCaption fun b => b.go .inTable
    else if name = "table" then b.endCaption fun b => b.again .inTable
    else if ["body", "col", "colgroup", "html", "tbody", "td", "tfoot", "th", "thead",
        "tr"].contains name then b.done
    else b.inBody (.endTag name)
  | t => b.inBody t

/-- End a column group for a token that does not belong into it. -/
def leaveColumns (b : Builder) : Step :=
  if b.currentIs (·.named "colgroup") then b.pop.again .inTable else b.done

/-- The rules in a column group. -/
def inColumnGroup (b : Builder) : Token → Step
  | .char c => if isBlank c then (b.insertChar c).done else b.leaveColumns
  | .comment data => (b.insertComment data).done
  | .startTag tag =>
    if tag.name = "html" then b.done
    else if tag.name = "col" then (b.leaf tag).done
    else if tag.name = "template" then b.metadata tag
    else b.leaveColumns
  | .endTag name =>
    if name = "colgroup" then
      if b.currentIs (·.named "colgroup") then b.pop.go .inTable else b.done
    else if name = "col" then b.done
    else if name = "template" then b.endTemplate.done
    else b.leaveColumns
  | .eof => b.inBody .eof
  | _ => b.leaveColumns

/-! ## Rows and cells -/

/-- End the rows for a token that comes after them. -/
def leaveRows (b : Builder) : Step :=
  if b.inTableScope ["table", "tbody", "tfoot"] then (b.backTo bodyContext).pop.again .inTable
  else b.done

/-- The rules between rows. -/
def inTableBody (b : Builder) : Token → Step
  | .startTag tag =>
    if tag.name = "tr" then ((b.backTo bodyContext).enter tag).go .inRow
    else if tag.name = "td" ∨ tag.name = "th" then
      ((b.backTo bodyContext).enterImplied "tr").again .inRow
    else if ["caption", "col", "colgroup", "tbody", "tfoot", "thead"].contains tag.name then
      b.leaveRows
    else b.inTable (.startTag tag)
  | .endTag name =>
    if ["tbody", "tfoot", "thead"].contains name then
      if b.inTableScope [name] then (b.backTo bodyContext).pop.go .inTable else b.done
    else if name = "table" then b.leaveRows
    else if ["body", "caption", "col", "colgroup", "html", "td", "th", "tr"].contains name then
      b.done
    else b.inTable (.endTag name)
  | t => b.inTable t

/-- End a row, and then a reply. -/
def endRow (b : Builder) (reply : Builder → Step) : Step :=
  if b.inTableScope ["tr"] then reply (b.backTo rowContext).pop else b.done

/-- The rules in a row. -/
def inRow (b : Builder) : Token → Step
  | .startTag tag =>
    if tag.name = "td" ∨ tag.name = "th" then
      ((b.backTo rowContext).enter tag).markFormatting.go .inCell
    else if ["caption", "col", "colgroup", "tbody", "tfoot", "thead", "tr"].contains tag.name then
      b.endRow fun b => b.again .inTableBody
    else b.inTable (.startTag tag)
  | .endTag name =>
    if name = "tr" then b.endRow fun b => b.go .inTableBody
    else if name = "table" then b.endRow fun b => b.again .inTableBody
    else if ["tbody", "tfoot", "thead"].contains name then
      if b.inTableScope [name] then b.endRow fun b => b.again .inTableBody else b.done
    else if ["body", "caption", "col", "colgroup", "html", "td", "th"].contains name then b.done
    else b.inTable (.endTag name)
  | t => b.inTable t

/-- End a cell for a token that comes after it. -/
def leaveCell (b : Builder) : Step :=
  (b.closeImplied.restack (closeThrough (·.among ["td", "th"]))).clearFormatting.again .inRow

/-- The rules in a cell. -/
def inCell (b : Builder) : Token → Step
  | .startTag tag =>
    if ["caption", "col", "colgroup", "tbody", "td", "tfoot", "th", "thead", "tr"].contains
        tag.name then
      if b.inTableScope ["td", "th"] then b.leaveCell else b.done
    else b.inBody (.startTag tag)
  | .endTag name =>
    if name = "td" ∨ name = "th" then
      if b.inTableScope [name] then (b.closeImplied.close name).clearFormatting.go .inRow
      else b.done
    else if ["body", "caption", "col", "colgroup", "html"].contains name then b.done
    else if ["table", "tbody", "tfoot", "thead", "tr"].contains name then
      if b.inTableScope [name] then b.leaveCell else b.done
    else b.inBody (.endTag name)
  | t => b.inBody t

end Builder
end Html
end LiveMarkup
