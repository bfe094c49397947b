import LiveMarkup.Json.Record

/-!
# Patch settings

Main definitions:

- `Identity`: how elements without an authored id are keyed.
- `PatchConfig`: the settings of patch compilation.
- `PatchConfig.ofJson?`: the settings in a JSON record.
-/

namespace LiveMarkup

/-- How elements without an authored id are keyed. -/
inductive Identity where
  /-- By a key that is never used again. -/
  | generated
  /-- By their place. -/
  | structural
  deriving DecidableEq, Repr

/-- The settings of patch compilation. -/
structure PatchConfig where
  /-- How many patches are kept; zero for any number. -/
  cacheCapacity : Nat := 256
  identity : Identity := .generated
  /-- Whether attributes with an empty value are left out. -/
  dropEmptyAttributes : Bool := true
  deriving DecidableEq, Repr

namespace PatchConfig

/-- The settings under which equal markup always has equal keys. -/
def structural : PatchConfig :=
  { identity := .structural }

/-- Settings with another capacity. -/
def withCacheCapacity (config : PatchConfig) (capacity : Nat) : PatchConfig :=
  { config with cacheCapacity := capacity }

/-- The patch settings in a JSON record. -/
def ofJson? (j : Json) : Option PatchConfig :=
  match j.record? ["cache_capacity", "identity", "drop_empty_attributes"] with
  | some [capacity, identity, drop] => do
    let cacheCapacity ← Json.setting? Json.size? (some 256) capacity
    let identity ← Json.setting?
      (Json.choice? [("generated", .generated), ("structural", .structural)])
      (some Identity.generated) identity
    let dropEmptyAttributes ← Json.setting? Json.flag? (some true) drop
    return { cacheCapacity, identity, dropEmptyAttributes }
  | _ => none

end PatchConfig
end LiveMarkup
