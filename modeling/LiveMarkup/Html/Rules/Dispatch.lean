import LiveMarkup.Html.Rules.Frames
import LiveMarkup.Html.Rules.Select
import LiveMarkup.Html.Rules.Table

/-!
# Choosing the rules

A token inside foreign content follows rules of its own, unless the innermost element is one that
holds HTML; any other token follows the rules of the insertion mode.

Main definitions:

- `Builder.byMode`: the rules of the insertion mode.
- `Builder.holds`: whether a foreign element holds a token as HTML.
- `Builder.inForeign`: the rules for foreign content.
- `Builder.take`: the effect of a token.
-/

namespace LiveMarkup
namespace Html
namespace Builder

/-- The rules of the insertion mode. -/
def byMode (b : Builder) (t : Token) : Step :=
  match b.mode with
  | .beforeHead => b.beforeHead t
  | .inHead => b.inHead t
  | .afterHead => b.afterHead t
  | .inBody => b.inBody t
  | .text => b.inText t
  | .inTable => b.inTable t
  | .inTableText => b.inTableText t
  | .inCaption => b.inCaption t
  | .inColumnGroup => b.inColumnGroup t
  | .inTableBody => b.inTableBody t
  | .inRow => b.inRow t
  | .inCell => b.inCell t
  | .inSelect => b.inSelect t
  | .inSelectInTable => b.inSelectInTable t
  | .inTemplate => b.inTemplate t
  | .afterBody => b.afterBody t
  | .inFrameset => b.inFrameset t

/-! ## Foreign content -/

/-- Whether a foreign element holds a token as HTML. -/
def holds (e : Element) (t : Token) : Bool :=
  match t with
  | .char _ => e.holdsText || e.holdsHtml || e.annotation
  | .null => e.holdsText || e.holdsHtml || e.annotation
  | .startTag tag =>
    (e.holdsText && tag.name != "mglyph" && tag.name != "malignmark") || e.holdsHtml ||
      e.annotation ||
      (e.space == .mathml && e.name == "annotation-xml" && tag.name == "svg")
  | _ => false

/-- Leave foreign content for a tag of HTML. -/
def breakOut (b : Builder) (t : Token) : Step :=
  (b.restack (closeTo fun e => e.space == .html || e.holdsText || e.holdsHtml)).byMode t

/-- A start tag of a foreign element inside another. -/
def foreignStart (b : Builder) (e : Element) (tag : StartTag) : Builder :=
  let name := if e.space = .svg then Foreign.svgName tag.name else tag.name
  b.enterForeign e.space name tag

/-- An end tag in foreign content: it closes the innermost foreign element of its name up to
case, and where that is not found before HTML content, it follows the rules of the mode.  The
innermost element is foreign; `first` says that the walk is still at it. -/
def foreignEnd (b : Builder) (name : String) (first : Bool) : List Element → Step
  | [] => b.done
  | [_] => b.done
  | e :: rest =>
    if !first && e.space = .html then b.byMode (.endTag name)
    else if Foreign.lower e.name == name then { b with stack := rest }.done
    else b.foreignEnd name false rest

/-- The rules for foreign content. -/
def inForeign (b : Builder) (e : Element) (t : Token) : Step :=
  match t with
  | .char c => ((if isBlank c then b else b.forbidFrames).insertChar c).done
  | .null => (b.insertChar '\ufffd').done
  | .comment data => (b.insertComment data).done
  | .startTag tag =>
    if Foreign.breaksOut tag then b.breakOut t else (b.foreignStart e tag).done
  | .endTag name =>
    if name = "br" ∨ name = "p" then b.breakOut t else b.foreignEnd name true b.stack
  | _ => b.done

/-! ## Tokens -/

/-- One attempt at a token. -/
def attempt (b : Builder) (t : Token) : Step :=
  match b.foreign? with
  | none => b.byMode t
  | some e => if t = .eof ∨ holds e t then b.byMode t else b.inForeign e t

/-- Attempts at a token until a rule has dealt with it, as many as a number. -/
def attempts : Nat → Builder → Token → Builder × Option Content
  | 0, b, _ => (b, none)
  | n + 1, b, t =>
    match b.attempt t with
    | (b, .done) => (b, none)
    | (b, .content kind) => (b, some kind)
    | (b, .again) => attempts n b t

/-- The effect of a token, and the kind of content that it starts.  A token that a rule passes on
meets fewer open elements or a mode that deals with it, which bounds the attempts. -/
def take (b : Builder) (t : Token) : Builder × Option Content :=
  let drops := b.dropsNewline
  let b := { b with dropsNewline := false }
  if t = .nothing ∨ (drops ∧ t = .char '\n') then (b, none)
  else attempts (4 * b.stack.length + 16) b t

end Builder
end Html
end LiveMarkup
