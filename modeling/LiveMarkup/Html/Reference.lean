import LiveMarkup.Html.ReferenceNames

/-!
# Character references

A character reference stands for a character in markup: `&#65;` and `&#x41;` by its number, `&lt;`
by a name.  Some names stand for two characters.  The oldest names may also stand without the
semicolon.

Main definitions:

- `Reference.namesFor`: the names that may begin like a text.
- `Reference.longest?`: the longest name that a text starts with.
- `Reference.numbered`: the character of a number.
- `Reference.number?`: the number written in a reference.
-/

namespace LiveMarkup
namespace Html
namespace Reference

/-! ## Names -/

/-- Whether the names of a section may begin like a text. -/
def Section.fits (s : Section) : List Char → Bool
  | [] => true
  | [first] => s.first == first
  | first :: second :: _ => s.first == first && s.second == second

/-- The names that may begin like a text, and what they stand for. -/
def namesFor (cs : List Char) : List (String × String) :=
  (sections.filter (·.fits cs)).flatMap (·.names)

/-- Whether some name starts with a text. -/
def startsName (cs : List Char) : Bool :=
  (namesFor cs).any fun entry => cs.isPrefixOf entry.1.toList

/-- The longest name that a text starts with, what it stands for, and what follows the name. -/
def longest? (cs : List Char) : Option (String × List Char × List Char) :=
  ((namesFor cs).find? fun entry => entry.1.toList.isPrefixOf cs).map fun entry =>
    (entry.1, entry.2.toList, cs.drop entry.1.length)

/-! ## Numbers -/

/-- What the numbers from 128 to 159 stand for, where it is not the character of that number. -/
def western : List (Nat × Char) :=
  [(0x80, '\u20ac'), (0x82, '\u201a'), (0x83, '\u0192'), (0x84, '\u201e'), (0x85, '\u2026'),
    (0x86, '\u2020'), (0x87, '\u2021'), (0x88, '\u02c6'), (0x89, '\u2030'), (0x8a, '\u0160'),
    (0x8b, '\u2039'), (0x8c, '\u0152'), (0x8e, '\u017d'), (0x91, '\u2018'), (0x92, '\u2019'),
    (0x93, '\u201c'), (0x94, '\u201d'), (0x95, '\u2022'), (0x96, '\u2013'), (0x97, '\u2014'),
    (0x98, '\u02dc'), (0x99, '\u2122'), (0x9a, '\u0161'), (0x9b, '\u203a'), (0x9c, '\u0153'),
    (0x9e, '\u017e'), (0x9f, '\u0178')]

/-- The character of a number; zero and what is no character stand for U+FFFD. -/
def numbered (n : Nat) : Char :=
  if n = 0 then '\ufffd'
  else
    match western.lookup n with
    | some c => c
    | none => if n.isValidChar then Char.ofNat n else '\ufffd'

/-- The value of a digit in a base up to sixteen. -/
def digit? (base : Nat) (c : Char) : Option Nat :=
  let value :=
    if c.isDigit then some (c.toNat - '0'.toNat)
    else if 'a' ≤ c.toLower ∧ c.toLower ≤ 'f' then some (c.toLower.toNat - 'a'.toNat + 10)
    else none
  value.filter (· < base)

/-- The base of a number whose text starts in a way, and the digits read of it. -/
def base : List Char → Nat × List Char
  | 'x' :: digits => (16, digits)
  | 'X' :: digits => (16, digits)
  | digits => (10, digits)

/-- The number written by a text after the number sign, unless it has no digits. -/
def number? (cs : List Char) : Option Nat :=
  let (b, digits) := base cs
  if digits.isEmpty then none
  else digits.foldlM (fun n c => (digit? b c).map fun d => n * b + d) 0

end Reference
end Html
end LiveMarkup
