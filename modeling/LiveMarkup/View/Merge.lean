import LiveMarkup.Value.Basic

/-!
# Merging scopes

New data overrides what a model holds, entry by entry: where both hold a map the maps are merged,
and anywhere else the new value replaces the old one whole.  Names keep their places, and new names
follow in the order of the new data.

Main definitions:

- `Value.merge`: a value overridden by another.
- `Scope.merge`: a scope overridden by another.
-/

namespace LiveMarkup

mutual

/-- An old value overridden by a new one. -/
def Value.merge (old : Option Value) : Value → Value
  | .map entries =>
    match old with
    | some (.map held) => .map (Value.mergeEntries held entries)
    | _ => .map entries
  | v => v

/-- Entries overridden by others, one after the other. -/
def Value.mergeEntries (held : List (String × Value)) :
    List (String × Value) → List (String × Value)
  | [] => held
  | (name, v) :: rest =>
    Value.mergeEntries (Entries.insert name (Value.merge (held.lookup name) v) held) rest

end

/-- A scope overridden by another. -/
def Scope.merge (model data : Scope) : Scope :=
  Value.mergeEntries model data

end LiveMarkup
