import LiveMarkup.Proofs.Patch.Recency

/-!
# Runs of a cache

A cache counts hits and misses, and for its insertions compilations and evictions.  An eviction is
read off from the entry that had to leave for an insertion: either it was replaced, and its source
has a patch still, or it was lost.  Over any calls the counts are the numbers of what happened, and
the cache keeps what was used last.

Main definitions:

- `PatchCache.missingIn`, `PatchCache.lostBy`, `PatchCache.lost`: the patches that calls lose.
- `PatchCache.calls`, `PatchCache.uses`: sequences of calls, and the sources that they use.
- `PatchCache.lastInserted?`: the patch that calls inserted last for a source.

Main results:

- `PatchCache.evictions_insert`: an insertion counts an eviction exactly if it adds a source to a
  full cache.
- `PatchCache.Recent.evictions_call`: a call counts the patches that it loses.
- `PatchCache.Recent.calls`: calls leave a cache that keeps what was used last.
- `PatchCache.holds_most_recently_used`: what a cache keeps and counts, after any calls.
-/

namespace LiveMarkup
namespace PatchCache

variable {c : PatchCache} {order : List String} {source : String}

/-! ## What is counted -/

/-- To put an entry in changes no count. -/
theorem stats_push (c : PatchCache) (source : String) (patch : Patch) :
    (c.push source patch).2.stats = c.stats := by
  unfold push
  split
  · rfl
  · split
    · rfl
    · rfl

/-- To insert a patch counts a compilation, and an eviction if another source is displaced. -/
theorem stats_insert (c : PatchCache) (source : String) (patch : Patch) :
    (c.insert source patch).stats =
      { c.stats with
        compiles := c.stats.compiles + 1
        evictions := c.stats.evictions +
          ((c.push source patch).1.any fun left =>
            !(c.insert source patch).contains left.1).toNat } := by
  rw [← stats_push c source patch]
  rfl

/-- To look a source up counts a hit or a miss. -/
theorem stats_lookup (c : PatchCache) (source : String) :
    (c.lookup source).2.stats =
      if c.contains source then { c.stats with hits := c.stats.hits + 1 }
      else { c.stats with misses := c.stats.misses + 1 } := by
  unfold lookup contains
  cases c.peek? source with
  | some patch => rfl
  | none => rfl

/-- A new source displaces the last one of a full cache, and no other. -/
theorem sources_insert_of_full (hnodup : c.sources.Nodup) (hnew : c.contains source = false)
    (hfull : c.bound? = some c.size) (patch : Patch) :
    ∃ front last, c.entries = front ++ [last] ∧
      (c.insert source patch).sources = source :: front.map (·.1) ∧
      (c.insert source patch).contains last.1 = false := by
  obtain ⟨hpos, hlength⟩ := bound?_eq_size_iff.mp hfull
  have hmem := contains_eq_false_iff.mp hnew
  have hsources := c.sources_insert source patch
  rw [hnew, if_neg Bool.false_ne_true, if_pos hfull] at hsources
  rcases List.eq_nil_or_concat c.entries with hnil | ⟨front, last, hentries⟩
  · rw [sources, hnil] at hlength
    exact absurd hlength.symm hpos
  · rw [List.concat_eq_append] at hentries
    have hold : c.sources = front.map (·.1) ++ [last.1] := by
      rw [sources, hentries, List.map_append, List.map_singleton]
    rw [hold] at hmem hnodup hsources
    rw [List.dropLast_concat] at hsources
    refine ⟨front, last, hentries, hsources, ?_⟩
    rw [contains_eq_false_iff, hsources, List.mem_cons, not_or]
    constructor
    · rintro rfl
      exact hmem (by simp)
    · intro hfront
      exact List.disjoint_of_nodup_append hnodup hfront (by simp)

/-- An insertion counts an eviction exactly if its source is new and the cache is full. -/
theorem evictions_insert (hnodup : c.sources.Nodup) (source : String) (patch : Patch) :
    (c.insert source patch).stats.evictions = c.stats.evictions +
      if c.contains source = false ∧ c.bound? = some c.size then 1 else 0 := by
  rw [stats_insert]
  dsimp only
  congr 1
  unfold push
  cases hpeek : c.peek? source with
  | some replaced =>
    -- The entry that comes back is that of the source, for which there is a patch again.
    have hkept : c.contains source = true := by rw [contains, hpeek]; rfl
    have hagain : (c.insert source patch).contains source = true := by
      rw [contains_iff, sources_insert, if_pos hkept]
      exact List.mem_cons_self
    simp [hkept, hagain]
  | none =>
    have hnew := peek?_eq_none_iff.mp hpeek
    by_cases hfull : c.bound? = some c.size
    · obtain ⟨front, last, hentries, -, hgone⟩ := sources_insert_of_full hnodup hnew hfull patch
      simp [hnew, hfull, hentries, hgone]
    · simp [hfull]

/-- How many of the sources of a cache have no patch in another one. -/
def missingIn (c c' : PatchCache) : Nat :=
  c.sources.countP fun source => !c'.contains source

/-- How many patches a call loses; to forget all of them is not to lose them. -/
def lostBy (c : PatchCache) (call : Call) : Nat :=
  match call with
  | .clear => 0
  | call => c.missingIn (c.call call)

/-- Where one cache holds the sources of another, none is missing. -/
theorem missingIn_eq_zero {c' : PatchCache} (h : c.sources ⊆ c'.sources) :
    c.missingIn c' = 0 := by
  rw [missingIn, List.countP_eq_zero]
  intro source hmem
  simp [contains_iff.mpr (h hmem)]

/-- An insertion loses a patch exactly if its source is new and the cache is full. -/
theorem missingIn_insert (hnodup : c.sources.Nodup) (source : String) (patch : Patch) :
    c.missingIn (c.insert source patch) =
      if c.contains source = false ∧ c.bound? = some c.size then 1 else 0 := by
  split
  · next hdisplaces =>
    obtain ⟨hnew, hfull⟩ := hdisplaces
    obtain ⟨front, last, hentries, hsources, hgone⟩ :=
      sources_insert_of_full hnodup hnew hfull patch
    have hfront : ∀ other ∈ front.map (·.1), (c.insert source patch).contains other = true := by
      intro other hother
      rw [contains_iff, hsources]
      exact List.mem_cons_of_mem _ hother
    rw [missingIn, sources, hentries, List.map_append, List.map_singleton, List.countP_append,
      List.countP_eq_zero.mpr (by simpa using hfront), List.countP_singleton, hgone]
    rfl
  · next hkeeps =>
    apply missingIn_eq_zero
    intro other hother
    rw [sources_insert]
    split
    · exact mem_touch.mpr (Or.inr hother)
    · next hnew =>
      have hfull : ¬ c.bound? = some c.size := fun h =>
        hkeeps ⟨by simpa using hnew, h⟩
      rw [if_neg hfull]
      exact List.mem_cons_of_mem _ hother

/-- A call counts the patches that it loses as evictions. -/
theorem Recent.evictions_call (h : c.Recent order) (call : Call) :
    (c.call call).stats.evictions = c.stats.evictions + c.lostBy call := by
  cases call with
  | insert source patch =>
    change (c.insert source patch).stats.evictions = _ + c.missingIn (c.insert source patch)
    rw [evictions_insert h.nodup_sources, missingIn_insert h.nodup_sources]
  | lookup source =>
    have hkeeps : c.sources ⊆ (c.lookup source).2.sources := by
      intro other hother
      rw [sources_lookup]
      split
      · exact mem_touch.mpr (Or.inr hother)
      · exact hother
    change (c.lookup source).2.stats.evictions = _ + c.missingIn (c.lookup source).2
    rw [stats_lookup, missingIn_eq_zero hkeeps]
    split
    · rfl
    · rfl
  | peek source =>
    change c.stats.evictions = _ + c.missingIn c
    rw [missingIn_eq_zero (List.Subset.refl c.sources), Nat.add_zero]
  | contains source =>
    change c.stats.evictions = _ + c.missingIn c
    rw [missingIn_eq_zero (List.Subset.refl c.sources), Nat.add_zero]
  | clear => rfl

namespace Call

/-- Whether a call is a look-up. -/
def isLookup : Call → Bool
  | .lookup _ => true
  | _ => false

/-- Whether a call is an insertion. -/
def isInsert : Call → Bool
  | .insert _ _ => true
  | _ => false

/-- The patch that a call inserts for a source. -/
def inserted? (source : String) : Call → Option Patch
  | .insert other patch => if source = other then some patch else none
  | _ => none

end Call

/-- A look-up counts as a hit or as a miss, and an insertion as a compilation. -/
theorem counts_call (c : PatchCache) (call : Call) :
    (c.call call).stats.hits + (c.call call).stats.misses =
        c.stats.hits + c.stats.misses + (if call.isLookup then 1 else 0) ∧
      (c.call call).stats.compiles = c.stats.compiles + if call.isInsert then 1 else 0 := by
  cases call with
  | insert source patch =>
    simp only [PatchCache.call, stats_insert]
    exact ⟨rfl, rfl⟩
  | lookup source =>
    simp only [PatchCache.call, stats_lookup]
    split
    · exact ⟨Nat.add_right_comm _ _ _, rfl⟩
    · exact ⟨rfl, rfl⟩
  | peek _ => exact ⟨rfl, rfl⟩
  | contains _ => exact ⟨rfl, rfl⟩
  | clear => exact ⟨rfl, rfl⟩

/-- A patch that is found after a call was inserted by it or, if the call inserts none for its
source, found before. -/
theorem peek?_call {call : Call} {patch : Patch} (h : (c.call call).peek? source = some patch) :
    call.inserted? source = some patch ∨
      call.inserted? source = none ∧ c.peek? source = some patch := by
  cases call with
  | insert other inserted =>
    rcases peek?_insert h with ⟨rfl, rfl⟩ | ⟨hne, hold⟩
    · exact Or.inl (if_pos rfl)
    · exact Or.inr ⟨if_neg hne, hold⟩
  | lookup other => exact Or.inr ⟨rfl, (c.peek?_lookup other source).symm.trans h⟩
  | peek _ => exact Or.inr ⟨rfl, h⟩
  | contains _ => exact Or.inr ⟨rfl, h⟩
  | clear => cases h

/-! ## Sequences of calls -/

/-- The cache after calls. -/
def calls (c : PatchCache) (calls : List Call) : PatchCache :=
  calls.foldl call c

/-- The sources used by calls and before them, the latest first. -/
def uses (c : PatchCache) (earlier : List String) : List Call → List String
  | [] => earlier
  | call :: rest => (c.call call).uses (c.used earlier call) rest

/-- How many patches calls lose. -/
def lost (c : PatchCache) : List Call → Nat
  | [] => 0
  | call :: rest => c.lostBy call + (c.call call).lost rest

/-- The patch that calls inserted last for a source. -/
def lastInserted? (source : String) : List Call → Option Patch
  | [] => none
  | call :: rest => (lastInserted? source rest).or (call.inserted? source)

theorem capacity_calls (c : PatchCache) (calls : List Call) :
    (c.calls calls).capacity = c.capacity := by
  induction calls generalizing c with
  | nil => rfl
  | cons call rest ih =>
    refine (ih (c.call call)).trans ?_
    cases call with
    | insert source patch => exact c.capacity_insert source patch
    | lookup source => exact c.capacity_lookup source
    | peek _ => rfl
    | contains _ => rfl
    | clear => rfl

/-- The sources stay in order of use over calls. -/
theorem Recent.calls {earlier : List String} (h : c.Recent earlier.eraseDups) (calls : List Call) :
    (c.calls calls).Recent (c.uses earlier calls).eraseDups := by
  induction calls generalizing c earlier with
  | nil => exact h
  | cons call rest ih => exact ih (h.call call)

/-- Calls count the patches that they lose as evictions. -/
theorem Recent.evictions_calls {earlier : List String} (h : c.Recent earlier.eraseDups)
    (calls : List Call) :
    (c.calls calls).stats.evictions = c.stats.evictions + c.lost calls := by
  induction calls generalizing c earlier with
  | nil => rfl
  | cons call rest ih =>
    have hrest := ih (h.call call)
    rw [h.evictions_call call, Nat.add_assoc] at hrest
    exact hrest

/-- Calls count their look-ups as hits and misses, and their insertions as compilations. -/
theorem counts_calls (c : PatchCache) (calls : List Call) :
    (c.calls calls).stats.hits + (c.calls calls).stats.misses =
        c.stats.hits + c.stats.misses + calls.countP Call.isLookup ∧
      (c.calls calls).stats.compiles = c.stats.compiles + calls.countP Call.isInsert := by
  induction calls generalizing c with
  | nil => exact ⟨rfl, rfl⟩
  | cons call rest ih =>
    obtain ⟨hlookups, hinserts⟩ := ih (c.call call)
    obtain ⟨hlookup, hinsert⟩ := c.counts_call call
    rw [hlookup] at hlookups
    rw [hinsert] at hinserts
    rw [List.countP_cons, List.countP_cons]
    constructor
    · refine hlookups.trans ?_
      omega
    · refine hinserts.trans ?_
      omega

/-- A patch that is found after calls is the last that they inserted for its source or, if they
inserted none, was found before. -/
theorem peek?_calls {calls : List Call} {patch : Patch}
    (h : (c.calls calls).peek? source = some patch) :
    ((lastInserted? source calls).or (c.peek? source)) = some patch := by
  induction calls generalizing c with
  | nil => exact h
  | cons call rest ih =>
    have hrest := ih h
    rw [Option.or_eq_some_iff] at hrest
    rw [lastInserted?, Option.or_assoc, Option.or_eq_some_iff]
    rcases hrest with hlater | ⟨hnone, hfound⟩
    · exact Or.inl hlater
    · refine Or.inr ⟨hnone, ?_⟩
      rw [Option.or_eq_some_iff]
      exact peek?_call hfound

/-- What a cache keeps and counts after any calls.  Its sources are the last used ones since it was
cleared, each once, as many as its capacity allows, and each with the patch inserted last for it.
To peek and to ask for a source changes nothing.  Hits and misses add up to the look-ups, the
compilations are the insertions, and the evictions are the patches lost by other calls than
clearing: an insertion counts one exactly if its source is new and the cache is full. -/
theorem holds_most_recently_used (capacity : Nat) (calls : List Call) :
    let empty : PatchCache := { capacity }
    let c := empty.calls calls
    c.sources = firstOf capacity (empty.uses [] calls).eraseDups ∧
      (∀ source, c.peek? source =
        if source ∈ c.sources then lastInserted? source calls else none) ∧
      (∀ source, (c.peek? source).isSome = true ↔ source ∈ c.sources) ∧
      (∀ source, c.call (.peek source) = c ∧ c.call (.contains source) = c) ∧
      c.stats.hits + c.stats.misses = calls.countP Call.isLookup ∧
      c.stats.compiles = calls.countP Call.isInsert ∧
      c.stats.evictions = empty.lost calls ∧
      ∀ source patch, (c.insert source patch).stats.evictions = c.stats.evictions +
        if c.contains source = false ∧ c.bound? = some c.size then 1 else 0 := by
  intro empty c
  have hempty : empty.Recent (List.eraseDups []) := recent_of_empty rfl
  have hrecent := hempty.calls calls
  obtain ⟨hlookups, hinserts⟩ := empty.counts_calls calls
  have hkeys := hrecent.sources_eq
  rw [capacity_calls] at hkeys
  refine ⟨hkeys, ?_, fun _ => contains_iff, fun _ => ⟨rfl, rfl⟩, ?_, ?_, ?_, ?_⟩
  · intro source
    split
    · next hmem =>
      obtain ⟨patch, hpatch⟩ := Option.isSome_iff_exists.mp (contains_iff.mpr hmem)
      have hlast := peek?_calls hpatch
      rw [show empty.peek? source = none from rfl, Option.or_none] at hlast
      rw [hlast]
      exact hpatch
    · next hmem => exact peek?_eq_none_iff.mpr (contains_eq_false_iff.mpr hmem)
  · exact hlookups.trans (Nat.zero_add _)
  · exact hinserts.trans (Nat.zero_add _)
  · exact (hempty.evictions_calls calls).trans (Nat.zero_add _)
  · exact fun source patch => evictions_insert hrecent.nodup_sources source patch

/-- In a cache for two patches, a patch that was looked up outlives one that was inserted later, and
to insert a patch again evicts nothing. -/
example :
    let patch : Patch := ⟨0, []⟩
    let c := ({ capacity := 2 } : PatchCache).calls [.insert "a" patch, .insert "b" patch,
      .lookup "a", .insert "c" patch, .peek "b", .insert "a" patch]
    c.sources = ["a", "c"] ∧ c.stats = ⟨1, 0, 1, 4⟩ := by
  decide +kernel

end PatchCache
end LiveMarkup
