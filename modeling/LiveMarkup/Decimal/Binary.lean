/-!
# Binary fractions

A finite double is `m · 2 ^ e` for a natural number `m` and an integer `e`.  All exact work on the
text of a number starts from these two.

Main definitions:

- `Decimal.Binary`: sign, mantissa and exponent of a finite double.
- `Decimal.Class`: a double as not a number, an infinity, or a finite binary fraction.
- `Decimal.classify`: reads the class off the bits.
-/

namespace LiveMarkup
namespace Decimal

/-- A finite double: `mantissa * 2 ^ exponent`, negated if `negative`. -/
structure Binary where
  negative : Bool
  mantissa : Nat
  exponent : Int
  deriving DecidableEq, Repr

/-- What a double stands for. -/
inductive Class where
  | notANumber
  | infinite (negative : Bool)
  | finite (value : Binary)
  deriving DecidableEq, Repr

/-- The class written in the sixty-four bits of a double. -/
def classifyBits (bits : UInt64) : Class :=
  let n := bits.toNat
  let negative : Bool := Nat.pow 2 63 ≤ n
  let exponentField : Nat := n / Nat.pow 2 52 % Nat.pow 2 11
  let fraction : Nat := n % Nat.pow 2 52
  if exponentField = 2047 then
    if fraction = 0 then .infinite negative else .notANumber
  else if exponentField = 0 then
    .finite { negative, mantissa := fraction, exponent := -1074 }
  else
    .finite
      { negative
        mantissa := fraction + Nat.pow 2 52
        exponent := Int.subNatNat exponentField 1075 }

/-- The class of a double. -/
def classify (f : Float) : Class :=
  classifyBits f.toBits

namespace Binary

/-- Whether the fraction is a whole number. -/
def isWhole (b : Binary) : Bool :=
  0 ≤ b.exponent || b.mantissa % Nat.pow 2 (-b.exponent).toNat == 0

/-- The whole part of the magnitude. -/
def wholePart (b : Binary) : Nat :=
  if 0 ≤ b.exponent then b.mantissa * Nat.pow 2 b.exponent.toNat
  else b.mantissa / Nat.pow 2 (-b.exponent).toNat

end Binary
end Decimal
end LiveMarkup
