import LiveMarkup.Proofs.Patch.Calls
import Mathlib.Data.List.Nodup

/-!
# The order of use

A source is used when a patch is inserted for it and when a look-up finds one.  Whatever a cache is
asked, it keeps the patches of the sources that were used last since it was cleared, as many as it
has room for, in the order of their last use.

Main definitions:

- `PatchCache.touch`, `PatchCache.firstOf`: an order of use after one more use, and the part of it
  that a cache has room for.
- `PatchCache.sources`: the sources of the kept patches.
- `PatchCache.Call`, `PatchCache.call`: the calls of a cache.
- `PatchCache.used`: the sources that a call uses.
- `PatchCache.Recent`: a cache that keeps what comes first in an order of use.

Main results:

- `PatchCache.sources_insert`, `PatchCache.sources_lookup`: what a call does to the kept sources.
- `PatchCache.Recent.insert`, `PatchCache.Recent.lookup`: insertions and look-ups follow the order
  of use.
- `PatchCache.Recent.call`: one call leaves a cache that keeps what was used last.
-/

namespace LiveMarkup
namespace PatchCache

variable {c : PatchCache} {order : List String} {source : String}

/-! ## Orders of use -/

/-- An order of use, the last used source first, after one more use. -/
def touch (source : String) (order : List String) : List String :=
  source :: order.filter (· != source)

/-- As many of the first sources of an order as a capacity allows; zero allows any number. -/
def firstOf (capacity : Nat) (order : List String) : List String :=
  if capacity = 0 then order else order.take capacity

/-- A source that is used is in the order once. -/
theorem nodup_touch (source : String) (h : order.Nodup) : (touch source order).Nodup := by
  rw [touch, List.nodup_cons]
  exact ⟨by simp, h.filter _⟩

/-- Only the source that is used may be new in the order. -/
theorem mem_touch {other : String} : other ∈ touch source order ↔ other = source ∨ other ∈ order := by
  rw [touch, List.mem_cons, List.mem_filter, bne_iff_ne]
  constructor
  · rintro (h | ⟨h, -⟩)
    · exact Or.inl h
    · exact Or.inr h
  · intro h
    by_cases heq : other = source
    · exact Or.inl heq
    · exact Or.inr ⟨h.resolve_left heq, heq⟩

/-- A source that is not in the order need not be taken out. -/
theorem filter_eq_self_of_not_mem (h : source ∉ order) : order.filter (· != source) = order := by
  rw [List.filter_eq_self]
  intro other hother
  rw [bne_iff_ne]
  rintro rfl
  exact h hother

/-- To take out repetitions and to take out sources commute. -/
theorem eraseDups_filter (p : String → Bool) :
    ∀ uses : List String, (uses.filter p).eraseDups = uses.eraseDups.filter p
  | [] => rfl
  | source :: uses => by
    have ih := eraseDups_filter p (uses.filter fun other => !other == source)
    rw [List.eraseDups_cons]
    by_cases hp : p source = true
    · rw [List.filter_cons_of_pos hp, List.filter_cons_of_pos hp, List.eraseDups_cons, ← ih,
        List.filter_filter, List.filter_filter]
      simp only [Bool.and_comm]
    · have hsame : (uses.filter fun other => !other == source).filter p = uses.filter p := by
        rw [List.filter_filter]
        refine List.filter_congr fun other _ => ?_
        by_cases hother : other = source
        · simp [hother, hp]
        · simp [hother]
      rw [List.filter_cons_of_neg hp, List.filter_cons_of_neg hp, ← ih, hsame]
termination_by uses => uses.length
decreasing_by exact Nat.lt_succ_of_le (List.length_filter_le _ _)

/-- The distinct sources of a list of uses, the latest first, after one more use. -/
theorem eraseDups_cons_eq_touch (source : String) (uses : List String) :
    (source :: uses).eraseDups = touch source uses.eraseDups := by
  rw [List.eraseDups_cons, eraseDups_filter]
  rfl

/-- Among the first of an order, a source that is used again makes room for no other. -/
theorem filter_take_succ {n : Nat} (hnodup : order.Nodup) (hmem : source ∈ order.take (n + 1)) :
    (order.take (n + 1)).filter (· != source) = (order.filter (· != source)).take n := by
  induction order generalizing n with
  | nil => simp at hmem
  | cons first rest ih =>
    obtain ⟨hfirst, hrest⟩ := List.nodup_cons.mp hnodup
    rw [List.take_succ_cons] at hmem ⊢
    by_cases heq : first = source
    · subst heq
      have htake : first ∉ rest.take n := fun h => hfirst (List.mem_of_mem_take h)
      rw [List.filter_cons_of_neg (by simp), List.filter_cons_of_neg (by simp),
        filter_eq_self_of_not_mem hfirst, filter_eq_self_of_not_mem htake]
    · have hmem' : source ∈ rest.take n := by
        rcases List.mem_cons.mp hmem with h | h
        · exact absurd h.symm heq
        · exact h
      rw [List.filter_cons_of_pos (by simpa using heq),
        List.filter_cons_of_pos (by simpa using heq)]
      cases n with
      | zero => simp at hmem'
      | succ n => rw [List.take_succ_cons, ih hrest hmem']

/-- A source that is among the first comes to the front of them. -/
theorem firstOf_touch_of_mem {capacity : Nat} (hnodup : order.Nodup)
    (hmem : source ∈ firstOf capacity order) :
    firstOf capacity (touch source order) = touch source (firstOf capacity order) := by
  unfold firstOf at *
  cases capacity with
  | zero => rfl
  | succ n =>
    simp only [Nat.add_eq_zero_iff, Nat.one_ne_zero, and_false, if_false] at hmem ⊢
    rw [touch, touch, List.take_succ_cons, filter_take_succ hnodup hmem]

/-- If there is no room for another source, the last of the first gives way. -/
theorem firstOf_touch_of_full {capacity : Nat} (hmem : source ∉ firstOf capacity order)
    (hpos : capacity ≠ 0) (hlength : (firstOf capacity order).length = capacity) :
    firstOf capacity (touch source order) = source :: (firstOf capacity order).dropLast := by
  obtain ⟨n, rfl⟩ := Nat.exists_eq_succ_of_ne_zero hpos
  unfold firstOf at *
  rw [if_neg hpos] at hmem hlength ⊢
  rw [if_neg hpos]
  have hle : n + 1 ≤ order.length := by
    rw [List.length_take] at hlength
    omega
  have hsplit : order.filter (· != source) =
      order.take (n + 1) ++ (order.drop (n + 1)).filter (· != source) := by
    conv_lhs => rw [← List.take_append_drop (n + 1) order]
    rw [List.filter_append, filter_eq_self_of_not_mem hmem]
  rw [touch, List.take_succ_cons, hsplit, List.take_append_of_le_length (by rw [hlength]; omega),
    List.dropLast_eq_take, hlength, Nat.succ_sub_one]

/-- If there is room for another source, all the others stay. -/
theorem firstOf_touch_of_room {capacity : Nat} (hmem : source ∉ firstOf capacity order)
    (hroom : capacity = 0 ∨ (firstOf capacity order).length ≠ capacity) :
    firstOf capacity (touch source order) = source :: firstOf capacity order := by
  unfold firstOf at *
  by_cases hzero : capacity = 0
  · rw [if_pos hzero] at hmem ⊢
    rw [if_pos hzero, touch, filter_eq_self_of_not_mem hmem]
  · rw [if_neg hzero] at hmem hroom ⊢
    rw [if_neg hzero]
    have hlt : order.length < capacity := by
      rw [List.length_take] at hroom
      omega
    rw [List.take_of_length_le hlt.le] at hmem ⊢
    rw [touch, filter_eq_self_of_not_mem hmem, List.take_of_length_le (Nat.succ_le_of_lt hlt)]

/-! ## Kept sources -/

/-- The sources of the kept patches, the last used first. -/
def sources (c : PatchCache) : List String :=
  c.entries.map (·.1)

/-- The cache contains the sources of its entries. -/
theorem contains_iff : c.contains source = true ↔ source ∈ c.sources := by
  rw [contains, peek?, List.lookup_isSome_iff, sources, List.mem_map]
  constructor
  · rintro ⟨entry, hmem, hkey⟩
    exact ⟨entry, hmem, (beq_iff_eq.mp hkey).symm⟩
  · rintro ⟨entry, hmem, rfl⟩
    exact ⟨entry, hmem, beq_self_eq_true _⟩

theorem contains_eq_false_iff : c.contains source = false ↔ source ∉ c.sources := by
  rw [← contains_iff, Bool.not_eq_true]

/-- There is no patch for a source exactly if the cache does not contain it. -/
theorem peek?_eq_none_iff : c.peek? source = none ↔ c.contains source = false := by
  rw [contains, Option.isSome_eq_false_iff, Option.isNone_iff_eq_none]

/-- The cache has one entry for each source. -/
theorem size_eq (c : PatchCache) : c.size = c.sources.length := by
  rw [sources, List.length_map, size]

/-- A cache is full if it keeps as many patches as its capacity allows. -/
theorem bound?_eq_size_iff :
    c.bound? = some c.size ↔ c.capacity ≠ 0 ∧ c.sources.length = c.capacity := by
  unfold bound?
  split
  · next hzero => simp [hzero]
  · next hpos => simp [hpos, size_eq, eq_comm]

theorem map_fst_others (c : PatchCache) (source : String) :
    (c.others source).map (·.1) = c.sources.filter (· != source) := by
  rw [sources, List.filter_map]
  rfl

/-- A source that is inserted comes first, and the last one goes if the cache is full. -/
theorem sources_insert (c : PatchCache) (source : String) (patch : Patch) :
    (c.insert source patch).sources =
      if c.contains source then touch source c.sources
      else source :: if c.bound? = some c.size then c.sources.dropLast else c.sources := by
  rw [sources, entries_insert]
  split
  · exact congrArg (List.cons source) (c.map_fst_others source)
  · split
    · exact congrArg (List.cons source) List.map_dropLast
    · rfl

/-- A source that is found comes first. -/
theorem sources_lookup (c : PatchCache) (source : String) :
    (c.lookup source).2.sources =
      if c.contains source then touch source c.sources else c.sources := by
  unfold lookup contains
  cases c.peek? source with
  | some patch => exact congrArg (List.cons source) (c.map_fst_others source)
  | none => rfl

/-! ## One call -/

/-- A call of a cache. -/
inductive Call where
  | insert (source : String) (patch : Patch)
  | lookup (source : String)
  | peek (source : String)
  | contains (source : String)
  | clear

/-- The cache after a call. -/
def call (c : PatchCache) : Call → PatchCache
  | .insert source patch => c.insert source patch
  | .lookup source => (c.lookup source).2
  | .peek _ => c
  | .contains _ => c
  | .clear => c.clear

/-- The sources used by a call and before it, the latest first.  An insertion uses its source, and a
look-up does if it finds a patch; from a clearing on, no use counts that was before it. -/
def used (c : PatchCache) (earlier : List String) : Call → List String
  | .insert source _ => source :: earlier
  | .lookup source => if (c.lookup source).1.isSome then source :: earlier else earlier
  | .peek _ => earlier
  | .contains _ => earlier
  | .clear => []

/-- A cache keeps the patches of the sources that come first in an order of use, as many as it has
room for. -/
structure Recent (c : PatchCache) (order : List String) : Prop where
  nodup : order.Nodup
  sources_eq : c.sources = firstOf c.capacity order

theorem capacity_insert (c : PatchCache) (source : String) (patch : Patch) :
    (c.insert source patch).capacity = c.capacity := by
  change (c.push source patch).2.capacity = c.capacity
  unfold push
  split
  · rfl
  · split
    · rfl
    · rfl

theorem capacity_lookup (c : PatchCache) (source : String) :
    (c.lookup source).2.capacity = c.capacity := by
  unfold lookup
  split
  · rfl
  · rfl

/-- An insertion uses its source. -/
theorem Recent.insert (h : c.Recent order) (source : String) (patch : Patch) :
    (c.insert source patch).Recent (touch source order) where
  nodup := nodup_touch source h.nodup
  sources_eq := by
    rw [sources_insert, capacity_insert]
    by_cases hkept : c.contains source = true
    · have hmem := contains_iff.mp hkept
      rw [if_pos hkept]
      rw [h.sources_eq] at hmem ⊢
      exact (firstOf_touch_of_mem h.nodup hmem).symm
    · have hmem := mt contains_iff.mpr hkept
      rw [if_neg hkept]
      by_cases hfull : c.bound? = some c.size
      · obtain ⟨hpos, hlength⟩ := bound?_eq_size_iff.mp hfull
        rw [if_pos hfull]
        rw [h.sources_eq] at hmem hlength ⊢
        exact (firstOf_touch_of_full hmem hpos hlength).symm
      · have hroom : c.capacity = 0 ∨ c.sources.length ≠ c.capacity := by
          rw [bound?_eq_size_iff, not_and_or, not_not] at hfull
          exact hfull
        rw [if_neg hfull]
        rw [h.sources_eq] at hmem hroom ⊢
        exact (firstOf_touch_of_room hmem hroom).symm

/-- A look-up that finds a patch uses its source. -/
theorem Recent.lookup (h : c.Recent order) (hkept : c.contains source = true) :
    (c.lookup source).2.Recent (touch source order) where
  nodup := nodup_touch source h.nodup
  sources_eq := by
    have hmem := contains_iff.mp hkept
    rw [sources_lookup, if_pos hkept, capacity_lookup]
    rw [h.sources_eq] at hmem ⊢
    exact (firstOf_touch_of_mem h.nodup hmem).symm

/-- A look-up that finds no patch leaves the order of use as it is. -/
theorem Recent.lookup_of_not (h : c.Recent order) (hkept : ¬ c.contains source = true) :
    (c.lookup source).2.Recent order where
  nodup := h.nodup
  sources_eq := by rw [sources_lookup, if_neg hkept, capacity_lookup, h.sources_eq]

/-- The sources of a cache in order of use are different. -/
theorem Recent.nodup_sources (h : c.Recent order) : c.sources.Nodup := by
  rw [h.sources_eq, firstOf]
  split
  · exact h.nodup
  · exact (List.take_sublist _ _).nodup h.nodup

/-- A cache without entries has used none. -/
theorem recent_of_empty (h : c.entries = []) : c.Recent [] where
  nodup := List.nodup_nil
  sources_eq := by
    rw [sources, h, firstOf]
    split
    · rfl
    · exact List.take_nil.symm

/-- A call leaves a cache that keeps what was used last. -/
theorem Recent.call {earlier : List String} (h : c.Recent earlier.eraseDups) (call : Call) :
    (c.call call).Recent (c.used earlier call).eraseDups := by
  cases call with
  | insert source patch =>
    rw [used, eraseDups_cons_eq_touch]
    exact h.insert source patch
  | lookup source =>
    rw [used, lookup_fst]
    change ((c.lookup source).2).Recent
      (if c.contains source = true then source :: earlier else earlier).eraseDups
    by_cases hkept : c.contains source = true
    · rw [if_pos hkept, eraseDups_cons_eq_touch]
      exact h.lookup hkept
    · rw [if_neg hkept]
      exact h.lookup_of_not hkept
  | peek _ => exact h
  | contains _ => exact h
  | clear => exact recent_of_empty rfl

end PatchCache
end LiveMarkup
