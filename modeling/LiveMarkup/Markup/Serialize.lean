import LiveMarkup.Markup.Node

/-!
# Writing markup

Nodes are written as tags and escaped text.  Void elements get no end tag and no content, and the
texts directly inside raw-text elements are written as they are.

Main definitions:

- `Markup.isVoid`, `Markup.isRawText`: the two classes of elements.
- `Markup.escapeText`, `Markup.escapeAttribute`: texts and attribute values with references.
- `Markup.startTag`, `Markup.endTag`: tags.
- `Node.markup`, `Node.markupAll`: nodes.
-/

namespace LiveMarkup
namespace Markup

/-- The elements without content and without an end tag. -/
def voidElements : List String :=
  ["area", "base", "br", "col", "embed", "hr", "img", "input", "link", "meta", "param", "source",
    "track", "wbr"]

/-- The elements whose texts are written as they are. -/
def rawTextElements : List String :=
  ["script", "style", "xmp", "iframe", "noembed", "noframes", "noscript", "plaintext"]

/-- Whether an element is written without an end tag. -/
def isVoid (tag : String) : Bool :=
  voidElements.contains tag

/-- Whether the texts of an element are written as they are. -/
def isRawText (tag : String) : Bool :=
  rawTextElements.contains tag

/-- A character of a text. -/
def escapeTextChar (c : Char) : List Char :=
  match c with
  | '&' => ['&', 'a', 'm', 'p', ';']
  | '<' => ['&', 'l', 't', ';']
  | '>' => ['&', 'g', 't', ';']
  | '\u00a0' => ['&', 'n', 'b', 's', 'p', ';']
  | c => [c]

/-- A character of an attribute value. -/
def escapeAttributeChar (c : Char) : List Char :=
  match c with
  | '&' => ['&', 'a', 'm', 'p', ';']
  | '"' => ['&', 'q', 'u', 'o', 't', ';']
  | c => [c]

/-- A text with references for the characters that would not read back. -/
def escapeText (s : String) : String :=
  String.ofList (s.toList.flatMap escapeTextChar)

/-- An attribute value with references for the characters that would not read back. -/
def escapeAttribute (s : String) : String :=
  String.ofList (s.toList.flatMap escapeAttributeChar)

/-- An attribute after a blank; an empty value leaves the bare name. -/
def attributeText (a : Attribute) : String :=
  if a.value = "" then " " ++ a.name
  else " " ++ a.name ++ "=\"" ++ escapeAttribute a.value ++ "\""

/-- A start tag. -/
def startTag (tag : String) (attrs : List Attribute) : String :=
  "<" ++ tag ++ String.join (attrs.map attributeText) ++ ">"

/-- An end tag. -/
def endTag (tag : String) : String :=
  "</" ++ tag ++ ">"

end Markup

namespace Node

open Markup

mutual

/-- The markup of a node; `raw` says that its parent keeps texts as they are. -/
def markup (raw : Bool) : Node → String
  | .element tag attrs children =>
    if isVoid tag then startTag tag attrs
    else startTag tag attrs ++ markupAll (isRawText tag) children ++ endTag tag
  | .text data => if raw then data else escapeText data
  | .comment data => "<!--" ++ data ++ "-->"
  | .directive data => "<" ++ data ++ ">"

/-- The markup of several nodes with one parent. -/
def markupAll (raw : Bool) : List Node → String
  | [] => ""
  | n :: rest => markup raw n ++ markupAll raw rest

end

end Node
end LiveMarkup
