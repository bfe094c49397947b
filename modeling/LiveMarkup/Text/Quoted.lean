import LiveMarkup.Text.Unprinted

/-!
# Quoted text

Two ways of writing a text between double quotes.

`Text.Quoted.diagnostic` is the form used in listings of instructions: short escapes for the
common controls, and the code of every other character that would not be seen.
`Text.Quoted.literal` is the form of a string inside the text of a list or a map: short escapes,
four hexadecimal digits for the remaining controls, and everything else as it is.

Main definitions:

- `Text.hex`: lowercase hexadecimal digits of a number.
- `Text.Quoted.diagnostic`, `Text.Quoted.literal`: the two quoted forms.
-/

namespace LiveMarkup
namespace Text

/-- The lowercase hexadecimal digits of a number, at least one. -/
def hex (n : Nat) : List Char :=
  Nat.toDigits 16 n

/-- Lowercase hexadecimal digits, filled with zeros up to a width. -/
def hexPadded (width n : Nat) : List Char :=
  let digits := hex n
  List.replicate (width - digits.length) '0' ++ digits

namespace Quoted

/-- A character inside a diagnostic quotation. -/
def diagnosticChar (c : Char) : List Char :=
  match c with
  | '\x00' => ['\\', '0']
  | '\t' => ['\\', 't']
  | '\r' => ['\\', 'r']
  | '\n' => ['\\', 'n']
  | '"' => ['\\', '"']
  | '\\' => ['\\', '\\']
  | c =>
    if isUnprinted c then ['\\', 'u', '\x7b'] ++ hex c.toNat ++ ['\x7d']
    else [c]

/-- A text quoted for a diagnostic. -/
def diagnostic (s : String) : String :=
  String.ofList ('"' :: (s.toList.flatMap diagnosticChar ++ ['"']))

/-- A character inside a string literal. -/
def literalChar (c : Char) : List Char :=
  match c with
  | '"' => ['\\', '"']
  | '\\' => ['\\', '\\']
  | '\n' => ['\\', 'n']
  | '\r' => ['\\', 'r']
  | '\t' => ['\\', 't']
  | c => if c.toNat < 0x20 then ['\\', 'u'] ++ hexPadded 4 c.toNat else [c]

/-- A text quoted as a string literal. -/
def literal (s : String) : String :=
  String.ofList ('"' :: (s.toList.flatMap literalChar ++ ['"']))

end Quoted
end Text
end LiveMarkup
