/-!
# Reading numbers

Expressions know numbers written with digits and points after an optional minus sign.  Such a text
is a whole number if it has no point and fits sixty-four bits, and otherwise the double nearest to
the decimal it writes, if it writes one: at most one point, and at least one digit.

Main definitions:

- `Decimal.digitsValue`: the number that digits write.
- `Decimal.int64?`: a whole number in the signed sixty-four bit range.
- `Decimal.fraction?`: the double nearest to a decimal.
- `Decimal.size64?`: a natural number in the unsigned sixty-four bit range, as in list positions.
-/

namespace LiveMarkup
namespace Decimal

/-- The number written by decimal digits. -/
def digitsValue (digits : List Char) : Nat :=
  digits.foldl (fun n c => n * 10 + (c.toNat - '0'.toNat)) 0

/-- Whether a text is a nonempty run of decimal digits. -/
def isDigits (cs : List Char) : Bool :=
  !cs.isEmpty && cs.all Char.isDigit

/-- The smallest number in the signed sixty-four bit range. -/
def int64Min : Int := -Int.ofNat (Nat.pow 2 63)

/-- The largest number in the signed sixty-four bit range. -/
def int64Max : Int := Int.ofNat (Nat.pow 2 63 - 1)

/-- The whole number written by an optional minus sign and digits, if it is in range. -/
def int64? (cs : List Char) : Option Int :=
  match cs with
  | '-' :: digits =>
    if isDigits digits && -(digitsValue digits : Int) ≥ int64Min
    then some (-(digitsValue digits : Int)) else none
  | digits =>
    if isDigits digits && (digitsValue digits : Int) ≤ int64Max
    then some (digitsValue digits : Int) else none

/-- The double nearest to the decimal written by digits with at most one point among them. -/
def magnitude? (cs : List Char) : Option Float :=
  let whole := cs.takeWhile (· ≠ '.')
  let places := (cs.dropWhile (· ≠ '.')).drop 1
  let digits := whole ++ places
  if isDigits digits then some (Float.ofScientific (digitsValue digits) true places.length)
  else none

/-- The double nearest to the decimal written by an optional minus sign, digits and a point. -/
def fraction? (cs : List Char) : Option Float :=
  match cs with
  | '-' :: rest => (magnitude? rest).map Float.neg
  | rest => magnitude? rest

/-- The natural number below `2 ^ 64` written by digits after an optional plus sign. -/
def size64? (cs : List Char) : Option Nat :=
  let digits := match cs with
    | '+' :: rest => rest
    | rest => rest
  if isDigits digits && digitsValue digits < Nat.pow 2 64 then some (digitsValue digits) else none

end Decimal
end LiveMarkup
