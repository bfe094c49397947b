import LiveMarkup.Markup.Fragment

/-!
# Parsers

A markup parser turns a text into a fragment or refuses it because its elements are nested too
deeply.

Main definitions:

- `ParseError`: why markup is refused.
- `MarkupParser`: the type of parsers.
-/

namespace LiveMarkup

/-- Why markup is refused: an element lies deeper than a limit. -/
inductive ParseError where
  | depthLimit (limit : Nat) (tag : String)
  deriving DecidableEq, Repr

/-- The wording of an error. -/
def ParseError.message : ParseError → String
  | .depthLimit limit tag =>
    "nesting exceeds " ++ toString limit ++ " levels at <" ++ tag ++ ">"

/-- A function from markup to fragments. -/
abbrev MarkupParser := String → Except ParseError Fragment

end LiveMarkup
