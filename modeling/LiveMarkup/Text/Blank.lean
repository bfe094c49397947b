/-!
# Blank characters

Template expressions, block tags and parser settings skip blanks as Unicode counts them: the
twenty-five characters of the property `White_Space`, which goes beyond the ASCII blanks that
markup itself knows.

Main definitions:

- `Text.isBlank`: membership of the property.
- `Text.trimLeft`, `Text.trim`: a text without the blanks at its start, and at both its ends.
-/

namespace LiveMarkup
namespace Text

/-- A character with the Unicode property `White_Space`. -/
def isBlank (c : Char) : Bool :=
  ('\t' ≤ c && c ≤ '\r') || c == ' ' || c == '\u0085' || c == '\u00a0' || c == '\u1680' ||
    ('\u2000' ≤ c && c ≤ '\u200a') || c == '\u2028' || c == '\u2029' || c == '\u202f' ||
    c == '\u205f' || c == '\u3000'

/-- What is left of a text after the blanks at its start. -/
def trimLeft (cs : List Char) : List Char :=
  cs.dropWhile isBlank

/-- A text without the blanks at its start and at its end. -/
def trim (cs : List Char) : List Char :=
  (trimLeft (trimLeft cs).reverse).reverse

end Text
end LiveMarkup
