import LiveMarkup.Html.Adoption
import LiveMarkup.Html.Rules.Head

/-!
# Rules for bodies

Main definitions:

- `Builder.bodyStart`, `Builder.bodyEnd`: the start tags and the end tags in a body.
- `Builder.inBody`, `Builder.afterBody`: the rules of the modes.
-/

namespace LiveMarkup
namespace Html
namespace Builder

/-! ## Start tags -/

/-- Blocks that close a paragraph before them. -/
def blocks : List String :=
  ["address", "article", "aside", "blockquote", "center", "details", "dialog", "dir", "div", "dl",
    "fieldset", "figcaption", "figure", "footer", "header", "hgroup", "main", "menu", "nav", "ol",
    "p", "search", "section", "summary", "ul"]

/-- The end tags that close their element with everything inside it. -/
def blockEnds : List String :=
  ["address", "article", "aside", "blockquote", "button", "center", "details", "dialog", "dir",
    "div", "dl", "fieldset", "figcaption", "figure", "footer", "header", "hgroup", "listing",
    "main", "menu", "nav", "ol", "pre", "search", "section", "summary", "ul"]

/-- Formatting other than links. -/
def formats : List String :=
  ["b", "big", "code", "em", "font", "i", "s", "small", "strike", "strong", "tt", "u"]

/-- The attributes of another body tag are added to the body. -/
def extendBody (b : Builder) (tag : StartTag) : Builder :=
  match b.stack.reverse with
  | _ :: body :: _ =>
    if body.named "body" && !b.isOpen "template" then
      { b with
        tree := b.tree.addMissing body.id (Foreign.adjust .html tag.attrs) }.forbidFrames
    else b
  | _ => b

/-- A set of frames replaces the body, where that is still allowed. -/
def replaceBody (b : Builder) (tag : StartTag) : Step :=
  match b.stack.reverse with
  | root :: body :: _ =>
    if b.framesAllowed && body.named "body" then
      ({ b with tree := b.tree.detach body.id, stack := [root] }.enter tag).go .inFrameset
    else b.done
  | _ => b.done

/-- The item that a new item closes: the innermost with one of the names, unless an element other
than an address, a division and a paragraph is open inside it. -/
def itemToClose? (names : List String) : List Element → Option String
  | [] => none
  | e :: rest =>
    if e.among names then some e.name
    else if e.isSpecial && !e.among ["address", "div", "p"] then none
    else itemToClose? names rest

/-- A new item of a list. -/
def enterItem (b : Builder) (tag : StartTag) (names : List String) : Builder :=
  let b := b.forbidFrames
  let b :=
    match itemToClose? names b.stack with
    | some name => (b.closeImpliedBut name).close name
    | none => b
  b.closeParagraphInScope.enter tag

/-- A form, unless one is open that is not in a template. -/
def enterForm (b : Builder) (tag : StartTag) : Builder :=
  let inTemplate := b.isOpen "template"
  if b.form?.isSome && !inTemplate then b
  else
    let (e, b) := b.closeParagraphInScope.insertOpen .html tag.name tag.attrs
    if inTemplate then b else { b with form? := some e }

/-- Whether a field is hidden. -/
def isHidden (tag : StartTag) : Bool :=
  match Attribute.find? tag.attrs "type" with
  | some kind => Foreign.lower kind == "hidden"
  | none => false

/-- A selection. -/
def enterSelect (b : Builder) (tag : StartTag) : Step :=
  let b := (b.reconstruct.enter tag).forbidFrames
  b.go
    (if [.inTable, .inCaption, .inTableBody, .inRow, .inCell].contains b.mode then
      .inSelectInTable
    else .inSelect)

/-- A foreign element. -/
def enterForeign (b : Builder) (space : Namespace) (name : String) (tag : StartTag) : Builder :=
  if tag.selfClosing then (b.insert space name tag.attrs).2
  else (b.insertOpen space name tag.attrs).2

/-- The annotations of a ruby text, each of which ends the one before it. -/
def enterRuby (b : Builder) (tag : StartTag) : Builder :=
  let b :=
    if !b.inScope Element.bounds "ruby" then b
    else if tag.name = "rb" ∨ tag.name = "rtc" then b.closeImplied
    else b.closeImpliedBut "rtc"
  b.enter tag

/-- A start tag in a body. -/
def bodyStart (b : Builder) (tag : StartTag) : Step :=
  let name := tag.name
  if name = "html" then b.done
  else if metadataTags.contains name then b.metadata tag
  else if name = "body" then (b.extendBody tag).done
  else if name = "frameset" then b.replaceBody tag
  else if blocks.contains name then (b.closeParagraphInScope.enter tag).done
  else if Element.headings.contains name then
    let b := b.closeParagraphInScope
    let b := if b.currentIs (·.among Element.headings) then b.pop else b
    (b.enter tag).done
  else if name = "pre" ∨ name = "listing" then
    { (b.closeParagraphInScope.enter tag).forbidFrames with dropsNewline := true }.done
  else if name = "form" then (b.enterForm tag).done
  else if name = "li" then (b.enterItem tag ["li"]).done
  else if name = "dd" ∨ name = "dt" then (b.enterItem tag ["dd", "dt"]).done
  else if name = "plaintext" then (b.closeParagraphInScope.enter tag, .content .plaintext)
  else if name = "button" then
    let b := if b.inScope Element.bounds "button" then b.closeImplied.close "button" else b
    (b.reconstruct.enter tag).forbidFrames.done
  else if name = "a" then (b.closeLink.reconstruct.enterFormatting tag).done
  else if formats.contains name then (b.reconstruct.enterFormatting tag).done
  else if name = "nobr" then
    let b := b.reconstruct
    let b :=
      if b.inScope Element.bounds "nobr" then (b.closeFormatting "nobr").reconstruct else b
    (b.enterFormatting tag).done
  else if ["applet", "marquee", "object"].contains name then
    (b.reconstruct.enter tag).markFormatting.forbidFrames.done
  else if name = "table" then (b.closeParagraphInScope.enter tag).forbidFrames.go .inTable
  else if ["area", "br", "embed", "img", "keygen", "wbr"].contains name then
    (b.reconstruct.leaf tag).forbidFrames.done
  else if name = "input" then
    let b := b.reconstruct.leaf tag
    (if isHidden tag then b else b.forbidFrames).done
  else if ["param", "source", "track"].contains name then (b.leaf tag).done
  else if name = "hr" then (b.closeParagraphInScope.leaf tag).forbidFrames.done
  else if name = "image" then (b.reconstruct.leaf { tag with name := "img" }).forbidFrames.done
  else if name = "textarea" then
    { b.forbidFrames with dropsNewline := true }.enterText tag .rcdata
  else if name = "xmp" then
    b.closeParagraphInScope.reconstruct.forbidFrames.enterText tag .rawtext
  else if name = "iframe" then b.forbidFrames.enterText tag .rawtext
  else if name = "noembed" ∨ name = "noscript" then b.enterText tag .rawtext
  else if name = "select" then b.enterSelect tag
  else if name = "optgroup" ∨ name = "option" then
    let b := if b.currentIs (·.named "option") then b.pop else b
    (b.reconstruct.enter tag).done
  else if ["rb", "rtc", "rp", "rt"].contains name then (b.enterRuby tag).done
  else if name = "math" then (b.enterForeign .mathml name tag).done
  else if name = "svg" then (b.enterForeign .svg name tag).done
  else if ["caption", "col", "colgroup", "frame", "head", "tbody", "td", "tfoot", "th", "thead",
      "tr"].contains name then b.done
  else (b.reconstruct.enter tag).done

/-! ## End tags -/

/-- The end tag of a form. -/
def endForm (b : Builder) : Builder :=
  if b.isOpen "template" then
    if b.inScope Element.bounds "form" then b.closeImplied.close "form" else b
  else
    match b.form? with
    | none => b
    | some form =>
      let b := { b with form? := none }
      if Html.inScope Element.bounds (·.same form) b.stack then
        b.closeImplied.restack (closeOnly form)
      else b

/-- The end tag of a paragraph; without a paragraph it makes an empty one. -/
def endParagraph (b : Builder) : Builder :=
  let b := if b.inScope Element.boundsParagraph "p" then b else b.enterImplied "p"
  b.closeParagraph

/-- The end tag of an item of a list. -/
def endItem (b : Builder) (name : String) : Builder :=
  let bound := if name = "li" then Element.boundsItem else Element.bounds
  if b.inScope bound name then (b.closeImpliedBut name).close name else b

/-- The end tag of a heading, which ends any heading. -/
def endHeading (b : Builder) : Builder :=
  if Html.inScope Element.bounds (·.among Element.headings) b.stack then
    b.closeImplied.restack (closeThrough (·.among Element.headings))
  else b

/-- The end tag of a block. -/
def endBlock (b : Builder) (name : String) : Builder :=
  if b.inScope Element.bounds name then b.closeImplied.close name else b

/-- An end tag in a body. -/
def bodyEnd (b : Builder) (name : String) : Step :=
  if name = "template" then b.endTemplate.done
  else if name = "body" then
    if b.inScope Element.bounds "body" then b.go .afterBody else b.done
  else if name = "html" then
    if b.inScope Element.bounds "body" then b.again .afterBody else b.done
  else if blockEnds.contains name then (b.endBlock name).done
  else if name = "form" then b.endForm.done
  else if name = "p" then b.endParagraph.done
  else if ["li", "dd", "dt"].contains name then (b.endItem name).done
  else if Element.headings.contains name then b.endHeading.done
  else if name = "a" ∨ name = "nobr" ∨ formats.contains name then (b.closeFormatting name).done
  else if ["applet", "marquee", "object"].contains name then
    if b.inScope Element.bounds name then (b.closeImplied.close name).clearFormatting.done
    else b.done
  else if name = "br" then (b.reconstruct.leaf { name }).forbidFrames.done
  else (b.closeOther name).done

/-! ## Modes -/

/-- A character in a body. -/
def bodyChar (b : Builder) (c : Char) : Builder :=
  let b := if isBlank c then b else b.forbidFrames
  b.reconstruct.insertChar c

/-- The rules in a body. -/
def inBody (b : Builder) : Token → Step
  | .char c => (b.bodyChar c).done
  | .comment data => (b.insertComment data).done
  | .startTag tag => b.bodyStart tag
  | .endTag name => b.bodyEnd name
  | .eof => if b.templateModes.isEmpty then b.done else b.endInTemplate
  | .null => b.done
  | .nothing => b.done

/-- The rules after a body. -/
def afterBody (b : Builder) : Token → Step
  | .char c => if isBlank c then b.inBody (.char c) else b.again .inBody
  | .comment data => (b.insertCommentIn Tree.root data).done
  | .startTag tag => if tag.name = "html" then b.done else b.again .inBody
  | .endTag name => if name = "html" then b.done else b.again .inBody
  | .eof => b.done
  | _ => b.again .inBody

/-- The rules inside an element whose content is text. -/
def inText (b : Builder) : Token → Step
  | .char c => (b.insertChar c).done
  | .eof => b.pop.again b.modeAfter
  | _ => b.pop.go b.modeAfter

/-- Whether a token is the end tag of an open script. -/
def endsScript (b : Builder) (t : Token) : Bool :=
  b.mode == .text && t == .endTag "script"

end Builder
end Html
end LiveMarkup
