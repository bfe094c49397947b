import LiveMarkup.Decimal.Shortest
import LiveMarkup.Text.Quoted
import LiveMarkup.Value.Basic

/-!
# The text of a value

A placeholder shows the text of its value.  Null shows nothing and a string shows itself; numbers,
lists and maps show their literal form, in which strings are quoted and null is spelled out.  A
helper inside a list or a map shows a fixed mark and is not called.

Main definitions:

- `Value.intText`, `Value.floatText`: the texts of whole numbers and of doubles.
- `Value.literal`: the form inside lists and maps.
- `Value.text`: the form at the top.
-/

namespace LiveMarkup
namespace Value

/-- The bound below which whole doubles are written digit by digit. -/
def wholeBound : Nat := Nat.pow 10 21

/-- The text of a double: a whole number without a point, exact below `wholeBound`; otherwise the
fewest digits that read back.  Both zeros are written alike. -/
def floatText (f : Float) : String :=
  match Decimal.classify f with
  | .notANumber => "NaN"
  | .infinite negative => if negative then "-Infinity" else "Infinity"
  | .finite b =>
    if b.mantissa = 0 then "0"
    else
      let sign := if b.negative then ['-'] else []
      let digits :=
        if b.isWhole && b.wholePart < wholeBound then Nat.toDigits 10 b.wholePart
        else
          let (digits, place) := Decimal.shortest b
          Decimal.positional digits place
      String.ofList (sign ++ digits)

/-- The text of a whole number. -/
def intText (n : Int) : String :=
  let digits := Nat.toDigits 10 n.natAbs
  String.ofList (if n < 0 then '-' :: digits else digits)

/-- The mark of a helper inside a list or a map. -/
def helperMark : String := "[helper]"

mutual

/-- The literal form of a value. -/
def literal : Value → String
  | .null => "null"
  | .bool b => if b then "true" else "false"
  | .int n => intText n
  | .float f => floatText f
  | .str s => Text.Quoted.literal s
  | .list items => "[" ++ literalItems items ++ "]"
  | .map entries => "\x7b" ++ literalEntries entries ++ "\x7d"
  | .helper _ => helperMark

/-- The literal forms of the elements of a list, with commas between them. -/
def literalItems : List Value → String
  | [] => ""
  | [v] => literal v
  | v :: w :: rest => literal v ++ ", " ++ literalItems (w :: rest)

/-- The entries of a map, each a bare name and a literal form, with commas between them. -/
def literalEntries : List (String × Value) → String
  | [] => ""
  | [(name, v)] => name ++ ": " ++ literal v
  | (name, v) :: entry :: rest =>
    name ++ ": " ++ literal v ++ ", " ++ literalEntries (entry :: rest)

end

/-- The text that a placeholder shows for a value. -/
def text : Value → String
  | .null => ""
  | .str s => s
  | v => literal v

end Value
end LiveMarkup
