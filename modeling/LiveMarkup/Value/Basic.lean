import LiveMarkup.Decimal.Reading
import LiveMarkup.Entries

/-!
# Values

What a template can be given: null, booleans, numbers, strings, lists, maps and helpers.  A helper
is a function that templates call while they render.  A value holds only the identity of a helper;
what helpers do is a `Behaviour`, which every function that may call one takes as an argument.

Main definitions:

- `Helper`, `Value`, `Scope`: the data.
- `Behaviour`: what each helper returns for its arguments.
- `Value.member?`: one step of a dotted path.
- `Value.eqv`: equality of values, under which the order of a map does not count.
- `Value.ofSize`: a size as a number.
-/

namespace LiveMarkup

/-- The identity of a function that templates can call. -/
structure Helper where
  id : Nat
  deriving DecidableEq, Repr

/-- A value that a template can show. -/
inductive Value where
  | null
  | bool (b : Bool)
  | int (n : Int)
  | float (f : Float)
  | str (s : String)
  | list (items : List Value)
  | map (entries : List (String × Value))
  | helper (h : Helper)
  deriving Inhabited

/-- The bindings that one render is given. -/
abbrev Scope := Entries Value

/-- What each helper returns for its arguments. -/
abbrev Behaviour := Helper → List Value → Value

namespace Value

/-- The name of a kind of value in messages; whole and other numbers have one name. -/
def typeName : Value → String
  | .null => "null"
  | .bool _ => "bool"
  | .int _ => "number"
  | .float _ => "number"
  | .str _ => "string"
  | .list _ => "list"
  | .map _ => "map"
  | .helper _ => "helper"

/-- Whether a value is null. -/
def isNull : Value → Bool
  | .null => true
  | _ => false

/-- The text of a string. -/
def string? : Value → Option String
  | .str s => some s
  | _ => none

/-- The entries of a map. -/
def entries? : Value → Option Scope
  | .map entries => some entries
  | _ => none

/-- The helper that a value is. -/
def helper? : Value → Option Helper
  | .helper h => some h
  | _ => none

/-- One step of a dotted path: a key of a map or a position in a list. -/
def member? (v : Value) (segment : String) : Option Value :=
  match v with
  | .map entries => entries.lookup segment
  | .list items => (Decimal.size64? segment.toList).bind fun i => items[i]?
  | _ => none

/-- What a block repeats its body for: the elements of a list or the values of a map. -/
def items : Value → List Value
  | .list items => items
  | .map entries => Entries.values entries
  | _ => []

/-- A size as a value: a whole number, or beyond the signed range the nearest double. -/
def ofSize (n : Nat) : Value :=
  if (n : Int) ≤ Decimal.int64Max then .int n else .float (Float.ofNat n)

mutual

/-- Equality of values.  Whole numbers and doubles never agree, a double that is not a number
agrees with nothing, helpers agree if they are the same, and maps agree if they bind the same
names to values that agree. -/
def eqv : Value → Value → Bool
  | .null, .null => true
  | .bool a, .bool b => a == b
  | .int a, .int b => a == b
  | .float a, .float b => a == b
  | .str a, .str b => a == b
  | .list a, .list b => eqvItems a b
  | .map a, .map b => a.length == b.length && eqvEntries a b
  | .helper a, .helper b => a == b
  | _, _ => false

/-- Equality of lists of values. -/
def eqvItems : List Value → List Value → Bool
  | [], [] => true
  | v :: vs, w :: ws => eqv v w && eqvItems vs ws
  | _, _ => false

/-- Whether every entry has an agreeing entry under the same name. -/
def eqvEntries : List (String × Value) → List (String × Value) → Bool
  | [], _ => true
  | (name, v) :: rest, others =>
    (match others.lookup name with
      | some w => eqv v w
      | none => false) && eqvEntries rest others

end

instance : BEq Value := ⟨eqv⟩

end Value
end LiveMarkup
