import LiveMarkup.Markup.Node

/-!
# Tokens

The pieces that markup is read as, and the kinds of content that decide how.

Main definitions:

- `Html.StartTag`, `Html.Token`: the pieces.
- `Html.Content`: the kinds of content.
- `Html.isBlank`: the blanks of markup.
-/

namespace LiveMarkup
namespace Html

/-- The characters that separate attributes and count as blank in a text: tab, line feed, form
feed, carriage return and space. -/
def isBlank (c : Char) : Bool :=
  c == '\t' || c == '\n' || c == '\x0c' || c == '\r' || c == ' '

/-- A start tag; no two of its attributes have one name. -/
structure StartTag where
  name : String
  attrs : List Attribute := []
  selfClosing : Bool := false
  deriving DecidableEq, Repr

/-- A piece of markup. -/
inductive Token where
  | startTag (tag : StartTag)
  | endTag (name : String)
  | comment (data : String)
  | char (c : Char)
  /-- The character U+0000 in ordinary content. -/
  | null
  /-- Markup that yields nothing, but stands between what surrounds it. -/
  | nothing
  /-- The end of the markup. -/
  | eof
  deriving DecidableEq, Repr

/-- The kinds of content. -/
inductive Content where
  /-- Ordinary content. -/
  | data
  /-- Text with references but without tags. -/
  | rcdata
  /-- Text as it stands. -/
  | rawtext
  /-- The text of a script. -/
  | script
  /-- The text of a script inside a comment, after so many dashes. -/
  | escaped (dashes : Nat)
  /-- The text of a script in a script tag inside a comment, after so many dashes. -/
  | doubled (dashes : Nat)
  /-- Text as it stands, up to the end. -/
  | plaintext
  /-- Text as it stands, up to two brackets and `>`, after so many brackets. -/
  | cdata (brackets : Nat)
  deriving DecidableEq, Repr

end Html
end LiveMarkup
