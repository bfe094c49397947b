import LiveMarkup.Patch.Instruction

/-!
# The patch cache

Patches are kept by the source they were compiled from, the most recently used first.  When there
are more than the cache may hold, the least recently used is lost.

Main definitions:

- `Patch`: instructions with the serial number of their compilation.
- `CacheStats`: what was counted.
- `PatchCache`: the kept patches, with `lookup`, `peek?`, `contains`, `push`, `insert` and `clear`.
-/

namespace LiveMarkup

/-- The instructions of a compilation, with its serial number. -/
structure Patch where
  serial : Nat
  instructions : List Instruction
  deriving DecidableEq, Repr

/-- Whether two patches come from the same compilation. -/
def Patch.sameStack (a b : Patch) : Bool :=
  a.serial == b.serial

/-- What a cache counts. -/
structure CacheStats where
  hits : Nat := 0
  misses : Nat := 0
  evictions : Nat := 0
  compiles : Nat := 0
  deriving DecidableEq, Repr

/-- The part of the look-ups that found a patch; zero without look-ups. -/
def CacheStats.hitRate (stats : CacheStats) : Float :=
  if stats.hits + stats.misses = 0 then 0
  else Float.ofNat stats.hits / Float.ofNat (stats.hits + stats.misses)

/-- The kept patches by their sources, the most recently used first. -/
structure PatchCache where
  /-- How many patches are kept; zero for any number. -/
  capacity : Nat
  entries : List (String × Patch) := []
  stats : CacheStats := {}

namespace PatchCache

/-- The number of kept patches. -/
def size (c : PatchCache) : Nat :=
  c.entries.length

/-- The bound, if there is one. -/
def bound? (c : PatchCache) : Option Nat :=
  if c.capacity = 0 then none else some c.capacity

/-- The patch of a source. -/
def peek? (c : PatchCache) (source : String) : Option Patch :=
  c.entries.lookup source

/-- Whether there is a patch of a source. -/
def contains (c : PatchCache) (source : String) : Bool :=
  (c.peek? source).isSome

/-- The entries of other sources. -/
def others (c : PatchCache) (source : String) : List (String × Patch) :=
  c.entries.filter fun entry => entry.1 != source

/-- The patch of a source, which becomes the most recently used; counts a hit or a miss. -/
def lookup (c : PatchCache) (source : String) : Option Patch × PatchCache :=
  match c.peek? source with
  | some patch =>
    (some patch,
      { c with
        entries := (source, patch) :: c.others source
        stats := { c.stats with hits := c.stats.hits + 1 } })
  | none => (none, { c with stats := { c.stats with misses := c.stats.misses + 1 } })

/-- Put the patch of a source first.  The entry that has to leave for it comes back: what was kept
for the source, or else, if the cache is full, the least recently used entry. -/
def push (c : PatchCache) (source : String) (patch : Patch) :
    Option (String × Patch) × PatchCache :=
  match c.peek? source with
  | some replaced =>
    (some (source, replaced), { c with entries := (source, patch) :: c.others source })
  | none =>
    if c.bound? = some c.size then
      (c.entries.getLast?, { c with entries := (source, patch) :: c.entries.dropLast })
    else (none, { c with entries := (source, patch) :: c.entries })

/-- Keep the patch of a source as the most recently used; counts a compilation, and an eviction if
an entry left whose source has no patch any more. -/
def insert (c : PatchCache) (source : String) (patch : Patch) : PatchCache :=
  let (left?, c) := c.push source patch
  let evicted := left?.any fun left => !c.contains left.1
  { c with
    stats :=
      { c.stats with
        compiles := c.stats.compiles + 1
        evictions := c.stats.evictions + evicted.toNat } }

/-- Forget every patch but not what was counted. -/
def clear (c : PatchCache) : PatchCache :=
  { c with entries := [] }

end PatchCache
end LiveMarkup
