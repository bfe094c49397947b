import LiveMarkup.Json.Basic
import LiveMarkup.Decimal.Reading

/-!
# Reading JSON

A strict reader: the grammar of JSON texts without extensions, no control character inside a
string, no half of a surrogate pair on its own, arrays and objects nested less than a limit.

A whole number stays whole if it fits sixty-four bits: unsigned without a minus sign, signed with
one.  Any other number becomes a double: the first nineteen or twenty digits are collected in
sixty-four bits and the result is scaled by a power of ten, both steps rounded.  A number beyond
the largest double is refused.

Main definitions:

- `Json.Reader.scale?`: a collected number times a power of ten.
- `Json.Reader.number?`, `Json.Reader.string?`: the two scalar readers.
- `Json.read?`: a whole text.
-/

namespace LiveMarkup
namespace Json
namespace Reader

/-- What is left after the blanks of JSON. -/
def skipBlanks (cs : List Char) : List Char :=
  cs.dropWhile fun c => c == ' ' || c == '\n' || c == '\t' || c == '\r'

/-! ## Numbers -/

/-- The power of ten as a double. -/
def powerOfTen (n : Nat) : Float :=
  Float.ofScientific 1 false n

/-- Division by `10 ^ 308` until the remaining exponent is in range, then by what remains. -/
def scaleDown : Nat → Float → Nat → Float
  | 0, f, _ => f
  | fuel + 1, f, e =>
    if e ≤ 308 then f / powerOfTen e
    else if f == 0 then f
    else scaleDown fuel (f / powerOfTen 308) (e - 308)

/-- The double `digits * 10 ^ exponent`, refused beyond the largest double. -/
def scale? (digits : Nat) (exponent : Int) : Option Float :=
  let f := Float.ofNat digits
  if exponent < 0 then
    some (scaleDown (exponent.natAbs / 308 + 1) f exponent.natAbs)
  else if 308 < exponent then
    if f == 0 then some f else none
  else
    let scaled := f * powerOfTen exponent.toNat
    if scaled.isInf then none else some scaled

/-- Digits collected while they fit sixty-four bits: the collected number, how many digits were
taken, and what is left. -/
def collect : Nat → Nat → List Char → Nat × Nat × List Char
  | acc, taken, c :: rest =>
    if c.isDigit && acc * 10 + (c.toNat - '0'.toNat) < Nat.pow 2 64 then
      collect (acc * 10 + (c.toNat - '0'.toNat)) (taken + 1) rest
    else (acc, taken, c :: rest)
  | acc, taken, [] => (acc, taken, [])

/-- The largest exponent that is counted. -/
def maxExponent : Nat := Nat.pow 2 31 - 1

/-- The double with a written exponent after the collected digits. -/
def exponent? (digits : Nat) (place : Int) (cs : List Char) : Option (Float × List Char) :=
  let (negative, cs) := match cs with
    | '+' :: rest => (false, rest)
    | '-' :: rest => (true, rest)
    | rest => (false, rest)
  let written := cs.takeWhile Char.isDigit
  let rest := cs.dropWhile Char.isDigit
  if written.isEmpty then none
  else
    let e := Decimal.digitsValue written
    if maxExponent < e then
      if digits ≠ 0 && !negative then none else some (0, rest)
    else
      let total := if negative then place - e else place + e
      (scale? digits total).map fun f => (f, rest)

/-- The double with or without a written exponent after the collected digits. -/
def finish? (digits : Nat) (place : Int) (cs : List Char) : Option (Float × List Char) :=
  match cs with
  | 'e' :: rest => exponent? digits place rest
  | 'E' :: rest => exponent? digits place rest
  | rest => (scale? digits place).map fun f => (f, rest)

/-- The double with the digits after the point, which follow here. -/
def places? (digits : Nat) (place : Int) (cs : List Char) : Option (Float × List Char) :=
  let (all, taken, rest) := collect digits 0 cs
  if taken = 0 && (rest.takeWhile Char.isDigit).isEmpty then none
  else finish? all (place - taken) (rest.dropWhile Char.isDigit)

/-- The double after collected digits of the whole part. -/
def afterWhole? (digits : Nat) (place : Int) (cs : List Char) : Option (Float × List Char) :=
  match cs with
  | '.' :: rest => places? digits place rest
  | rest => finish? digits place rest

/-- A number without its sign. -/
def magnitude? (negative : Bool) (cs : List Char) : Option (Json × List Char) :=
  let signed := fun (r : Float × List Char) =>
    (Json.float (if negative then -r.1 else r.1), r.2)
  match cs with
  | '0' :: c :: rest =>
    if c.isDigit then none
    else if c == '.' || c == 'e' || c == 'E' then (afterWhole? 0 0 (c :: rest)).map signed
    else some (if negative then .float (-0.0) else .int 0, c :: rest)
  | ['0'] => some (if negative then .float (-0.0) else .int 0, [])
  | cs =>
    let (digits, taken, rest) := collect 0 0 cs
    if taken = 0 then none
    else
      let skipped := rest.takeWhile Char.isDigit
      match rest with
      | '.' :: _ | 'e' :: _ | 'E' :: _ => (afterWhole? digits 0 rest).map signed
      | _ =>
        if !skipped.isEmpty then
          (afterWhole? digits skipped.length (rest.dropWhile Char.isDigit)).map signed
        else if !negative then some (.int digits, rest)
        else if digits ≤ Nat.pow 2 63 then some (.int (-(digits : Int)), rest)
        else some (.float (-(Float.ofNat digits)), rest)

/-- A number. -/
def number? (cs : List Char) : Option (Json × List Char) :=
  match cs with
  | '-' :: rest => magnitude? true rest
  | rest => magnitude? false rest

/-! ## Strings -/

/-- The value of a hexadecimal digit. -/
def hexDigit? (c : Char) : Option Nat :=
  if '0' ≤ c && c ≤ '9' then some (c.toNat - '0'.toNat)
  else if 'a' ≤ c && c ≤ 'f' then some (c.toNat - 'a'.toNat + 10)
  else if 'A' ≤ c && c ≤ 'F' then some (c.toNat - 'A'.toNat + 10)
  else none

/-- The number written by four hexadecimal digits. -/
def hex4? (a b c d : Char) : Option Nat := do
  let a ← hexDigit? a
  let b ← hexDigit? b
  let c ← hexDigit? c
  let d ← hexDigit? d
  return ((a * 16 + b) * 16 + c) * 16 + d

/-- The character of a short escape. -/
def shortEscape? (c : Char) : Option Char :=
  match c with
  | '"' => some '"'
  | '\\' => some '\\'
  | '/' => some '/'
  | 'b' => some '\x08'
  | 'f' => some '\x0c'
  | 'n' => some '\n'
  | 'r' => some '\r'
  | 't' => some '\t'
  | _ => none

/-- The characters of a string up to its closing quote, collected in reverse. -/
def stringBody? : List Char → List Char → Option (List Char × List Char)
  | acc, '"' :: rest => some (acc.reverse, rest)
  | acc, '\\' :: 'u' :: a :: b :: c :: d :: rest => do
    let unit ← hex4? a b c d
    if 0xdc00 ≤ unit && unit ≤ 0xdfff then none
    else if 0xd800 ≤ unit && unit ≤ 0xdbff then
      match rest with
      | '\\' :: 'u' :: e :: f :: g :: h :: rest =>
        let low ← hex4? e f g h
        if 0xdc00 ≤ low && low ≤ 0xdfff then
          stringBody? (Char.ofNat (0x10000 + (unit - 0xd800) * 0x400 + (low - 0xdc00)) :: acc) rest
        else none
      | _ => none
    else stringBody? (Char.ofNat unit :: acc) rest
  | acc, '\\' :: c :: rest => do
    let escaped ← shortEscape? c
    stringBody? (escaped :: acc) rest
  | acc, c :: rest =>
    if c.toNat < 0x20 || c == '\\' then none else stringBody? (c :: acc) rest
  | _, [] => none

/-- A string after its opening quote. -/
def string? (cs : List Char) : Option (String × List Char) :=
  (stringBody? [] cs).map fun r => (String.ofList r.1, r.2)

/-! ## Documents -/

/-- What is left after a keyword. -/
def keyword? (word : List Char) (cs : List Char) : Option (List Char) :=
  if word.isPrefixOf cs then some (cs.drop word.length) else none

mutual

/-- A value, with a bound on the steps and the number of levels that may still be opened. -/
def value? : Nat → Nat → List Char → Option (Json × List Char)
  | 0, _, _ => none
  | fuel + 1, levels, cs =>
    match skipBlanks cs with
    | '"' :: rest => (string? rest).map fun r => (.str r.1, r.2)
    | '[' :: rest =>
      if levels ≤ 1 then none
      else match skipBlanks rest with
        | ']' :: rest => some (.arr [], rest)
        | rest => items? fuel (levels - 1) [] rest
    | '\x7b' :: rest =>
      if levels ≤ 1 then none
      else match skipBlanks rest with
        | '\x7d' :: rest => some (.obj [], rest)
        | rest => fields? fuel (levels - 1) [] rest
    | 'n' :: rest => (keyword? ['u', 'l', 'l'] rest).map fun r => (.null, r)
    | 't' :: rest => (keyword? ['r', 'u', 'e'] rest).map fun r => (.bool true, r)
    | 'f' :: rest => (keyword? ['a', 'l', 's', 'e'] rest).map fun r => (.bool false, r)
    | rest => number? rest

/-- The items of an array up to its bracket, collected in reverse. -/
def items? : Nat → Nat → List Json → List Char → Option (Json × List Char)
  | 0, _, _, _ => none
  | fuel + 1, levels, acc, cs =>
    match value? fuel levels cs with
    | none => none
    | some (item, rest) =>
      match skipBlanks rest with
      | ',' :: rest => items? fuel levels (item :: acc) rest
      | ']' :: rest => some (.arr (item :: acc).reverse, rest)
      | _ => none

/-- The members of an object up to its brace, collected in the order of their names. -/
def fields? : Nat → Nat → List (String × Json) → List Char → Option (Json × List Char)
  | 0, _, _, _ => none
  | fuel + 1, levels, acc, cs =>
    match skipBlanks cs with
    | '"' :: rest =>
      match string? rest with
      | none => none
      | some (name, rest) =>
        match skipBlanks rest with
        | ':' :: rest =>
          match value? fuel levels rest with
          | none => none
          | some (value, rest) =>
            match skipBlanks rest with
            | ',' :: rest => fields? fuel levels (insertField name value acc) rest
            | '\x7d' :: rest => some (.obj (insertField name value acc), rest)
            | _ => none
        | _ => none
    | _ => none

end

end Reader

/-- The document written by a whole text, opened at most `levels - 1` levels deep. -/
def read? (text : String) (levels : Nat) : Option Json :=
  let cs := text.toList
  match Reader.value? (cs.length + 1) levels cs with
  | some (j, rest) => if (Reader.skipBlanks rest).isEmpty then some j else none
  | none => none

/-- The levels, plus one, to which documents may be nested. -/
def nestingLimit : Nat := 128

end Json
end LiveMarkup
