import LiveMarkup.Decimal.Binary

/-!
# The fewest digits that read back

The doubles next to a double leave around it an interval of numbers that read back as it.  Among
the decimals in that interval the shortest text has the fewest digits, and of two with equally
few the one nearer to the double; of two equally near the larger.

For a given place the only candidates are the two decimals of that place next to the double, so
the places are tried from the coarsest on, in exact arithmetic.

Main definitions:

- `Decimal.Gap`: a double with the interval that reads back as it, over a common denominator.
- `Decimal.shortest`: the digits and the place of the shortest decimal.
- `Decimal.positional`: digits written out at their place, without an exponent.
-/

namespace LiveMarkup
namespace Decimal

/-- The number `value / den` with the interval from `low / den` to `high / den`. -/
structure Gap where
  low : Nat
  value : Nat
  high : Nat
  den : Nat
  /-- Whether the two ends belong to the interval. -/
  closed : Bool

/-- The interval of a positive finite double.  Below a power of two the neighbours are twice as
dense, except at the bottom of the range. -/
def Binary.gap (b : Binary) : Gap :=
  let below := if b.mantissa = Nat.pow 2 52 ∧ -1074 < b.exponent then 1 else 2
  let e := b.exponent - 2
  let scale := Nat.pow 2 e.toNat
  { low := (4 * b.mantissa - below) * scale
    value := 4 * b.mantissa * scale
    high := (4 * b.mantissa + 2) * scale
    den := Nat.pow 2 (-e).toNat
    closed := b.mantissa % 2 = 0 }

namespace Gap

/-- The digit count of the whole part, or minus the number of zeros that follow the point before
the first digit: the place of the first digit plus one. -/
def leadingPlace (g : Gap) : Int :=
  if g.den ≤ g.value then ((Nat.toDigits 10 (g.value / g.den)).length : Int)
  else
    let zeros := (List.range 400).find? (fun k => g.den ≤ g.value * Nat.pow 10 (k + 1))
    Int.neg ((zeros.getD 0 : Nat) : Int)

/-- Whether `digits * 10 ^ place` lies in the interval. -/
def holds (g : Gap) (digits : Nat) (place : Int) : Bool :=
  let up := Nat.pow 10 place.toNat
  let down := Nat.pow 10 (-place).toNat
  let x := digits * up * g.den
  if g.closed then g.low * down ≤ x && x ≤ g.high * down
  else g.low * down < x && x < g.high * down

/-- The largest multiple of `10 ^ place` not above the number, counted in that unit. -/
def floorAt (g : Gap) (place : Int) : Nat :=
  g.value * Nat.pow 10 (-place).toNat / (g.den * Nat.pow 10 place.toNat)

/-- Whether the number is at least as near to `digits + 1` as to `digits`, at a place. -/
def upperIsNear (g : Gap) (digits : Nat) (place : Int) : Bool :=
  (2 * digits + 1) * Nat.pow 10 place.toNat * g.den ≤ 2 * g.value * Nat.pow 10 (-place).toNat

/-- The decimal of a place that reads back as the number, if there is one. -/
def candidate? (g : Gap) (place : Int) : Option Nat :=
  let lower := g.floorAt place
  match g.holds lower place, g.holds (lower + 1) place with
  | true, true => some (if g.upperIsNear lower place then lower + 1 else lower)
  | true, false => some lower
  | false, true => some (lower + 1)
  | false, false => none

end Gap

/-- The shortest decimal that reads back as a positive finite double: its digits as a number, and
the place of the last one.  Seventeen digits always suffice. -/
def shortest (b : Binary) : Nat × Int :=
  let g := b.gap
  let leading := g.leadingPlace
  let tryDigits := fun (n : Nat) =>
    let place := leading - 1 - n
    (g.candidate? place).map fun digits => (digits, place)
  ((List.range 17).findSome? tryDigits).getD (0, 0)

/-- Digits without the zeros at their end, each of which moves the place up. -/
def stripZeros : List Char → Int → List Char × Int
  | '0' :: rest, place => stripZeros rest (place + 1)
  | digits, place => (digits, place)

/-- The number `digits * 10 ^ place` written out without an exponent. -/
def positional (digits : Nat) (place : Int) : List Char :=
  let (reversed, place) := stripZeros (Nat.toDigits 10 digits).reverse place
  let ds := reversed.reverse
  if 0 ≤ place then ds ++ List.replicate place.toNat '0'
  else
    let places := (-place).toNat
    if places < ds.length then
      ds.take (ds.length - places) ++ '.' :: ds.drop (ds.length - places)
    else '0' :: '.' :: (List.replicate (places - ds.length) '0' ++ ds)

end Decimal
end LiveMarkup
