import LiveMarkup.Json.Basic

/-!
# Settings in JSON

Settings are read from an object by name, unknown names aside, or from an array by position, which
must not be longer than the settings.  A setting that is not given keeps its default; one of the
wrong kind makes the whole record unreadable.

Main definitions:

- `Json.record?`: the given settings in the order of their names.
- `Json.setting?`: one setting, with the reader of its kind and its default.
- `Json.size?`, `Json.flag?`, `Json.text?`, `Json.choice?`: the readers.
-/

namespace LiveMarkup
namespace Json

/-- The given settings in the order of their names. -/
def record? (names : List String) : Json → Option (List (Option Json))
  | .obj fields => some (names.map fun name => fields.lookup name)
  | .arr items =>
    if items.length ≤ names.length then some ((List.range names.length).map fun i => items[i]?)
    else none
  | _ => none

/-- A setting: read if it is given, else the default if there is one. -/
def setting? {α : Type} (read : Json → Option α) (default : Option α) : Option Json → Option α
  | some j => read j
  | none => default

/-- A size: a whole number that is not negative. -/
def size? : Json → Option Nat
  | .int n => if 0 ≤ n then some n.toNat else none
  | _ => none

/-- A flag. -/
def flag? : Json → Option Bool
  | .bool b => some b
  | _ => none

/-- A text. -/
def text? : Json → Option String
  | .str s => some s
  | _ => none

/-- One of several words, alone or as the only name of an object that holds null. -/
def choice? {α : Type} (words : List (String × α)) : Json → Option α
  | .str s => words.lookup s
  | .obj [(s, .null)] => words.lookup s
  | _ => none

end Json
end LiveMarkup
