import LiveMarkup.Json.Basic
import LiveMarkup.Value.Basic

/-!
# Values from JSON

A JSON document is a value: objects become maps in the order of their names, and a whole number
beyond the signed range becomes the nearest double.

Main definitions:

- `Value.ofJson`: the value of a document.
-/

namespace LiveMarkup
namespace Value

mutual

/-- The value of a JSON document. -/
def ofJson : Json → Value
  | .null => .null
  | .bool b => .bool b
  | .int n =>
    if n ≤ Decimal.int64Max then .int n else .float (Float.ofNat n.toNat)
  | .float f => .float f
  | .str s => .str s
  | .arr items => .list (ofJsonItems items)
  | .obj fields => .map (ofJsonFields fields)

/-- The values of the items of an array. -/
def ofJsonItems : List Json → List Value
  | [] => []
  | j :: rest => ofJson j :: ofJsonItems rest

/-- The values of the members of an object. -/
def ofJsonFields : List (String × Json) → List (String × Value)
  | [] => []
  | (name, j) :: rest => (name, ofJson j) :: ofJsonFields rest

end

end Value
end LiveMarkup
