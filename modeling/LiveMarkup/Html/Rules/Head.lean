import LiveMarkup.Html.Builder

/-!
# Rules for heads and templates

Main definitions:

- `Builder.metadata`: the start tags of metadata, which most modes know.
- `Builder.endTemplate`, `Builder.endInTemplate`: the end of a template by its tag, and by the end of
  the markup.
- `Builder.beforeHead`, `Builder.inHead`, `Builder.afterHead`: the rules of the modes.
-/

namespace LiveMarkup
namespace Html
namespace Builder

/-- The start tags of metadata. -/
def metadataTags : List String :=
  ["base", "basefont", "bgsound", "link", "meta", "noframes", "script", "style", "template",
    "title"]

/-- Open a template. -/
def enterTemplate (b : Builder) (tag : StartTag) : Builder :=
  let b := (b.enter tag).markFormatting.forbidFrames
  { b with mode := .inTemplate, templateModes := .inTemplate :: b.templateModes }

/-- A start tag of metadata. -/
def metadata (b : Builder) (tag : StartTag) : Step :=
  if tag.name = "template" then (b.enterTemplate tag).done
  else if tag.name = "title" then b.enterText tag .rcdata
  else if tag.name = "script" then b.enterText tag .script
  else if tag.name = "noframes" ∨ tag.name = "style" then b.enterText tag .rawtext
  else (b.leaf tag).done

/-- Leave the innermost open template. -/
def leaveTemplate (b : Builder) : Builder :=
  let b := (b.close "template").clearFormatting
  let b := { b with templateModes := b.templateModes.drop 1 }
  { b with mode := b.resetMode }

/-- The end tag of a template. -/
def endTemplate (b : Builder) : Builder :=
  if b.isOpen "template" then
    (b.restack (Html.closeImplied Element.thoroughEnds)).leaveTemplate
  else b

/-- The end of the markup where a template may be open. -/
def endInTemplate (b : Builder) : Step :=
  if b.isOpen "template" then (b.leaveTemplate, .again) else b.done

/-- Enter a head that no tag names. -/
def impliedHead (b : Builder) : Step :=
  let (e, b) := b.insertOpen .html "head" []
  { b with head? := some e }.again .inHead

/-- The rules before a head. -/
def beforeHead (b : Builder) : Token → Step
  | .char c => if isBlank c then b.done else b.impliedHead
  | .comment data => (b.insertComment data).done
  | .startTag tag =>
    if tag.name = "html" then b.done
    else if tag.name = "head" then
      let (e, b) := b.insertOpen .html tag.name tag.attrs
      { b with head? := some e }.go .inHead
    else b.impliedHead
  | .endTag name =>
    if ["head", "body", "html", "br"].contains name then b.impliedHead else b.done
  | _ => b.impliedHead

/-- The rules in a head. -/
def inHead (b : Builder) : Token → Step
  | .char c => if isBlank c then (b.insertChar c).done else b.pop.again .afterHead
  | .comment data => (b.insertComment data).done
  | .startTag tag =>
    if metadataTags.contains tag.name then b.metadata tag
    else if tag.name = "noscript" then b.enterText tag .rawtext
    else if tag.name = "html" ∨ tag.name = "head" then b.done
    else b.pop.again .afterHead
  | .endTag name =>
    if name = "head" then b.pop.go .afterHead
    else if name = "template" then b.endTemplate.done
    else if ["body", "html", "br"].contains name then b.pop.again .afterHead
    else b.done
  | _ => b.pop.again .afterHead

/-- Enter a body that no tag names. -/
def impliedBody (b : Builder) : Step :=
  (b.enterImplied "body").again .inBody

/-- The rules after a head. -/
def afterHead (b : Builder) : Token → Step
  | .char c => if isBlank c then (b.insertChar c).done else b.impliedBody
  | .comment data => (b.insertComment data).done
  | .startTag tag =>
    if tag.name = "html" ∨ tag.name = "head" then b.done
    else if tag.name = "body" then (b.enter tag).forbidFrames.go .inBody
    else if tag.name = "frameset" then (b.enter tag).go .inFrameset
    else if metadataTags.contains tag.name then
      match b.head? with
      | none => b.done
      | some head =>
        let (b, reply) := { b with stack := head :: b.stack }.metadata tag
        (b.restack (closeOnly head), reply)
    else b.impliedBody
  | .endTag name =>
    if name = "template" then b.endTemplate.done
    else if ["body", "html", "br"].contains name then b.impliedBody
    else b.done
  | _ => b.impliedBody

end Builder
end Html
end LiveMarkup
