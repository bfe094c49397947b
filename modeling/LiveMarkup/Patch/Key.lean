import LiveMarkup.Text.Quoted

/-!
# Keys

Patching matches elements by their keys.  An element with an authored id has the id as its key, in
which every at sign is written twice.  Any other element has a key that tells its place, counted
from the nearest keyed element above it and joined to that element's key by a single at sign, or a
generated key that no other element ever has.

Main definitions:

- `Key.authored`: the key of an authored id.
- `Key.structural`: the key of a place.
- `Key.generated`: thirty-two hexadecimal digits for each number, different for different numbers
  below `2 ^ 122`.
- `Key.isHex32`: whether a key has the form of a generated one, in capitals or not.
-/

namespace LiveMarkup
namespace Key

/-- A character of an authored id. -/
def authoredChar (c : Char) : List Char :=
  if c = '@' then ['@', '@'] else [c]

/-- The key of an element with an authored id. -/
def authored (id : String) : String :=
  String.ofList (id.toList.flatMap authoredChar)

/-- Positions with points between them. -/
def dotted (path : List Nat) : List Char :=
  List.intercalate ['.'] (path.map (Nat.toDigits 10))

/-- The key of the place at the end of a path of positions, counted from the element whose key is
the anchor, or from the top if the anchor is empty. -/
def structural (anchor : String) (path : List Nat) : String :=
  String.ofList (anchor.toList ++ '@' :: dotted path)

/-! ## Generated keys -/

/-- How many generated keys there are. -/
def generatedCount : Nat := Nat.pow 2 122

/-- An odd multiplier spreads consecutive numbers over the whole range. -/
def spread (n : Nat) : Nat :=
  (n * 0x2f14b6c39d0a7e58c3d2a96b1f0e4d7 + 0x1b873593cc9e2d51f57a3c0986e41d2) % generatedCount

/-- The generated key with a number: random in looks, with the version and variant digits of a
random unique identifier. -/
def generated (n : Nat) : String :=
  let x := spread n
  String.ofList
    (Text.hexPadded 12 (x / Nat.pow 2 74) ++ '4' ::
      Text.hexPadded 3 (x / Nat.pow 2 62 % Nat.pow 2 12) ++
      Text.hex (8 + x / Nat.pow 2 60 % 4) ++ Text.hexPadded 15 (x % Nat.pow 2 60))

/-- A hexadecimal digit in capitals or not. -/
def isHexDigit (c : Char) : Bool :=
  c.isDigit || ('a' ≤ c && c ≤ 'f') || ('A' ≤ c && c ≤ 'F')

/-- Whether a key consists of thirty-two hexadecimal digits. -/
def isHex32 (key : String) : Bool :=
  key.length == 32 && key.toList.all isHexDigit

end Key
end LiveMarkup
