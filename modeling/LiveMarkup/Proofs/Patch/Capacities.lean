import LiveMarkup.Proofs.Patch.CacheRuns
import LiveMarkup.Proofs.Patch.Erasure

/-!
# Caches of different capacities

A request for a patch uses its source if and only if the source can be compiled, whether a patch is
kept or not.  So compilers that serve the same requests with different capacities keep the beginnings
of one order of use: what the smaller cache keeps the larger one keeps too, and what the larger one
has to compile the smaller one has to compile too.

Main definitions:

- `PatchCompiler.wanted`: the order of use after a call.
- `PatchCompiler.dropped`: how many patches are forgotten when a cache is cleared.
- `PatchCompiler.Abreast`: two compilers after the same calls, the second with the larger cache.

Main results:

- `PatchCompiler.recent_call`: the order of use does not depend on what is kept.
- `PatchCompiler.Abreast.call`: one call leaves two compilers abreast.
- `PatchCompiler.larger_cache_saves_compilations`: what a larger cache saves.
-/

namespace LiveMarkup

namespace PatchCache

variable {c : PatchCache} {order : List String} {source : String}

/-- One capacity allows at least as much as another one; zero allows any number. -/
def Roomier (large small : Nat) : Prop :=
  large = 0 ∨ small ≠ 0 ∧ small ≤ large

instance (large small : Nat) : Decidable (Roomier large small) :=
  inferInstanceAs (Decidable (_ ∨ _))

/-- With less room, a beginning is kept of what is kept with more. -/
theorem firstOf_prefix {small large : Nat} (h : Roomier large small) (order : List String) :
    firstOf small order <+: firstOf large order := by
  unfold firstOf
  by_cases hsmall : small = 0
  · rcases h with hlarge | ⟨hne, -⟩
    · rw [if_pos hsmall, if_pos hlarge]
    · exact absurd hsmall hne
  · rw [if_neg hsmall]
    by_cases hlarge : large = 0
    · rw [if_pos hlarge]
      exact List.take_prefix _ _
    · rw [if_neg hlarge]
      have hle : small ≤ large := (h.resolve_left hlarge).2
      exact List.take_prefix_take_left hle

/-- A look-up changes only the order of the patches. -/
theorem size_lookup (hnodup : c.sources.Nodup) (source : String) :
    (c.lookup source).2.size = c.size := by
  rw [size_eq, size_eq, sources_lookup]
  split
  · next hkept =>
    have hmem := contains_iff.mp hkept
    rw [touch, ← hnodup.erase_eq_filter, List.length_cons, List.length_erase_of_mem hmem]
    have hpos := List.length_pos_of_mem hmem
    omega
  · rfl

theorem evictions_compiles_lookup (c : PatchCache) (source : String) :
    (c.lookup source).2.stats.evictions = c.stats.evictions ∧
      (c.lookup source).2.stats.compiles = c.stats.compiles := by
  rw [stats_lookup]
  split
  · exact ⟨rfl, rfl⟩
  · exact ⟨rfl, rfl⟩

/-- A new source makes a cache larger, or displaces a patch. -/
theorem size_insert (h : c.Recent order) (hnew : c.contains source = false) (patch : Patch) :
    (c.insert source patch).size + (c.insert source patch).stats.evictions =
      c.size + c.stats.evictions + 1 := by
  rw [evictions_insert h.nodup_sources, (c.insert source patch).size_eq, sources_insert, hnew,
    if_neg Bool.false_ne_true, List.length_cons]
  by_cases hfull : c.bound? = some c.size
  · obtain ⟨hpos, hlength⟩ := bound?_eq_size_iff.mp hfull
    rw [if_pos hfull, if_pos ⟨rfl, hfull⟩, List.length_dropLast, c.size_eq]
    omega
  · rw [if_neg hfull, if_neg fun hboth => hfull hboth.2, c.size_eq]
    omega

end PatchCache

namespace PatchCompiler

open PatchCache (touch firstOf Roomier)

variable {c : PatchCompiler} {order : List String}

/-! ## The cache after a call -/

/-- A request looks its source up and, if nothing is kept for it and it can be compiled, inserts the
patch that is compiled. -/
theorem cache_createPatch (c : PatchCompiler) (source : String) :
    (c.createPatch source).2.cache =
      if c.cache.contains source then (c.cache.lookup source).2
      else match (c.compileStack source).1 with
        | .error _ => (c.cache.lookup source).2
        | .ok instructions => (c.cache.lookup source).2.insert source ⟨c.serial, instructions⟩ := by
  have hfound : (c.cache.lookup source).1 = c.getPatch? source := PatchCache.lookup_fst _ _
  have hcompiled := c.compileStack_asked_fst source
  obtain ⟨-, hserial⟩ := parsed_serial_compileStack (c.asked source) source
  obtain ⟨-, hcache⟩ := compileStack_snd (c.asked source) source
  cases hkept : c.getPatch? source with
  | some patch =>
    have hcontains : c.cache.contains source = true := Option.isSome_iff_exists.mpr ⟨patch, hkept⟩
    rw [createPatch_of_kept (hfound.trans hkept), if_pos hcontains]
    rfl
  | none =>
    have hcontains : c.cache.contains source = false := PatchCache.peek?_eq_none_iff.mp hkept
    rw [hcontains, if_neg Bool.false_ne_true, ← hcompiled]
    cases hcompile : ((c.asked source).compileStack source).1 with
    | error e =>
      rw [createPatch_of_error (hfound.trans hkept) hcompile]
      exact hcache
    | ok instructions =>
      rw [createPatch_of_ok (hfound.trans hkept) hcompile]
      dsimp only
      rw [hcache, hserial]
      rfl

/-- A patch is kept only for a source that can be compiled. -/
theorem Coherent.isOk_compileStack (h : c.Coherent) {source : String}
    (hkept : c.contains source = true) : (c.compileStack source).1.isOk = true := by
  obtain ⟨patch, hpatch⟩ := Option.isSome_iff_exists.mp hkept
  obtain ⟨f, drafts, n, hparse, hdraft, -⟩ := h _ _ (PatchCache.mem_entries_of_peek? hpatch)
  unfold compileStack
  simp only [hparse, hdraft]
  rfl

/-- The order of use after a call: a request uses its source if it can be compiled. -/
def wanted (c : PatchCompiler) (order : List String) : Call → List String
  | .createPatch source => if (c.compileStack source).1.isOk then touch source order else order
  | .clearCache => []
  | _ => order

/-- After a call, the cache keeps what comes first in the order of use. -/
theorem recent_call (hcoherent : c.Coherent) (h : c.cache.Recent order) (call : Call) :
    (c.call call).cache.Recent (c.wanted order call) := by
  cases call with
  | createPatch source =>
    rw [PatchCompiler.call, cache_createPatch, wanted]
    by_cases hkept : c.cache.contains source = true
    · rw [if_pos hkept, hcoherent.isOk_compileStack hkept]
      exact h.lookup hkept
    · have hlooked := h.lookup_of_not hkept
      rw [if_neg hkept]
      cases (c.compileStack source).1 with
      | error e => exact hlooked
      | ok instructions => exact hlooked.insert source _
  | clearCache => exact PatchCache.recent_of_empty rfl
  | getPatch _ => exact h
  | contains _ => exact h
  | needsPatch _ => exact h

/-! ## What becomes of the patches -/

/-- How many patches a call forgets by clearing the cache. -/
def droppedBy (c : PatchCompiler) : Call → Nat
  | .clearCache => c.cache.size
  | _ => 0

/-- How many patches calls forget by clearing the cache. -/
def dropped (c : PatchCompiler) : List Call → Nat
  | [] => 0
  | call :: rest => c.droppedBy call + (c.call call).dropped rest

/-- Each patch that a call compiles is kept, or displaces one, and clearing drops the others. -/
theorem balance_call (h : c.cache.Recent order) (call : Call) :
    (c.call call).cache.size + (c.call call).cache.stats.evictions + c.droppedBy call +
        c.cache.stats.compiles =
      c.cache.size + c.cache.stats.evictions + (c.call call).cache.stats.compiles := by
  cases call with
  | createPatch source =>
    have hsize := PatchCache.size_lookup h.nodup_sources source
    obtain ⟨hevictions, hcompiles⟩ := c.cache.evictions_compiles_lookup source
    change (c.createPatch source).2.cache.size + (c.createPatch source).2.cache.stats.evictions +
      0 + c.cache.stats.compiles = _ + (c.createPatch source).2.cache.stats.compiles
    rw [cache_createPatch]
    by_cases hkept : c.cache.contains source = true
    · rw [if_pos hkept, hsize, hevictions, hcompiles, Nat.add_zero]
    · rw [if_neg hkept]
      cases (c.compileStack source).1 with
      | error e =>
        dsimp only
        rw [hsize, hevictions, hcompiles, Nat.add_zero]
      | ok instructions =>
        have hnew : (c.cache.lookup source).2.contains source = false := by
          rw [PatchCache.contains, PatchCache.peek?_lookup]
          exact Bool.eq_false_of_not_eq_true hkept
        have hinsert := PatchCache.size_insert (h.lookup_of_not hkept) hnew
          ⟨c.serial, instructions⟩
        dsimp only
        rw [hinsert, PatchCache.stats_insert, hsize, hevictions, hcompiles]
        dsimp only
        omega
  | clearCache =>
    change 0 + c.cache.stats.evictions + c.cache.size + c.cache.stats.compiles = _
    rw [Nat.zero_add, Nat.add_comm c.cache.stats.evictions]
    rfl
  | getPatch _ => rfl
  | contains _ => rfl
  | needsPatch _ => rfl

/-- After calls, the number of kept patches is that of the compiled ones without the evicted ones
and those that were dropped. -/
theorem balance_calls (hcoherent : c.Coherent) (h : c.cache.Recent order) (calls : List Call) :
    (c.calls calls).cache.size + (c.calls calls).cache.stats.evictions + c.dropped calls +
        c.cache.stats.compiles =
      c.cache.size + c.cache.stats.evictions + (c.calls calls).cache.stats.compiles := by
  induction calls generalizing c order with
  | nil => rfl
  | cons call rest ih =>
    have hstep := balance_call h call
    have hrest := ih (hcoherent.call call).2 (recent_call hcoherent h call)
    change ((c.call call).calls rest).cache.size + ((c.call call).calls rest).cache.stats.evictions +
      (c.droppedBy call + (c.call call).dropped rest) + c.cache.stats.compiles =
        _ + ((c.call call).calls rest).cache.stats.compiles
    omega

/-! ## Two compilers -/

/-- The compilers compile the same sources, to the same instructions but for generated keys. -/
structure SameSources (c c' : PatchCompiler) : Prop where
  parser : c'.parser = c.parser
  identity : c'.config.identity = c.config.identity
  drops : c'.config.dropEmptyAttributes = c.config.dropEmptyAttributes

theorem SameSources.draft_eq {c' : PatchCompiler} (h : c.SameSources c') (f : Fragment) :
    f.draft c'.config = f.draft c.config :=
  Draft.ofNodes_congr h.identity h.drops _ _ _ _

theorem SameSources.isOk_compileStack {c' : PatchCompiler} (h : c.SameSources c')
    (source : String) :
    (c'.compileStack source).1.isOk = (c.compileStack source).1.isOk := by
  unfold compileStack
  simp only [h.parser, h.draft_eq]
  cases c.parser source with
  | error e => rfl
  | ok f =>
    dsimp only
    cases f.draft c.config with
    | error e => rfl
    | ok drafts => rfl

/-- Two compilers with the same sources want the same of a call. -/
theorem SameSources.wanted_eq {c' : PatchCompiler} (h : c.SameSources c') (order : List String)
    (call : Call) : c'.wanted order call = c.wanted order call := by
  cases call with
  | createPatch source => rw [wanted, wanted, h.isOk_compileStack]
  | clearCache => rfl
  | getPatch _ => rfl
  | contains _ => rfl
  | needsPatch _ => rfl

/-- What is made of a source by compilers that compile the same sources differs at most in generated
keys. -/
theorem SameSources.eraseKeys_eq {c' : PatchCompiler} (h : c.SameSources c') {source : String}
    {stream stream' : List Instruction} (hmade : c.CompiledFrom source stream)
    (hmade' : c'.CompiledFrom source stream') :
    ∃ f, c.parser source = .ok f ∧ f.eraseKeys stream = f.eraseKeys stream' ∧
      (c.config.identity = .structural → stream = stream') := by
  obtain ⟨f, drafts, n, hparse, hdraft, rfl⟩ := hmade
  obtain ⟨f', drafts', n', hparse', hdraft', rfl⟩ := hmade'
  rw [h.parser, hparse, Except.ok.injEq] at hparse'
  subst hparse'
  rw [h.draft_eq, hdraft, Except.ok.injEq] at hdraft'
  subst hdraft'
  refine ⟨f, hparse, ?_, ?_⟩
  · -- Both are compiled anew by a compiler whose next key is the first one that was drawn.
    let bare : PatchConfig :=
      { identity := .generated, dropEmptyAttributes := c.config.dropEmptyAttributes }
    have herase : ∀ (supply : Nat → String) (n : Nat),
        Except.ok (f.eraseKeys (Draft.assign supply n drafts)) = f.draft bare := by
      intro supply n
      have hbare : bare.identity = .generated := rfl
      have hmap := map_eraseKeys_compileStack (c := { c with supply, drawn := n }) hbare rfl hparse
      unfold compileStack at hmap
      simp only [hparse, hdraft] at hmap
      exact hmap
    exact Except.ok.inj ((herase c.supply n).trans (herase c'.supply n').symm)
  · intro hidentity
    have hknown := Draft.countP_lacksKey_of_drafted hidentity (Draft.drafted_of_draft hdraft)
    exact Draft.assign_eq_of_countP_eq_zero c.supply c'.supply n n' hknown

/-- Two compilers after the same calls, the second one with the larger cache. -/
structure Abreast (c c' : PatchCompiler) (order : List String) : Prop where
  sources : c.SameSources c'
  coherent : c.Coherent
  coherent' : c'.Coherent
  roomier : Roomier c'.cache.capacity c.cache.capacity
  recent : c.cache.Recent order
  recent' : c'.cache.Recent order
  hits : c.cache.stats.hits ≤ c'.cache.stats.hits
  parsed : c'.parsed.Sublist c.parsed

variable {c' : PatchCompiler}

/-- What the smaller cache keeps, the larger one keeps in the same order. -/
theorem Abreast.sources_prefix (h : c.Abreast c' order) :
    c.cache.sources <+: c'.cache.sources := by
  rw [h.recent.sources_eq, h.recent'.sources_eq]
  exact PatchCache.firstOf_prefix h.roomier order

/-- What the smaller cache contains, the larger one does. -/
theorem Abreast.contains (h : c.Abreast c' order) {source : String}
    (hkept : c.cache.contains source = true) : c'.cache.contains source = true :=
  PatchCache.contains_iff.mpr (h.sources_prefix.subset (PatchCache.contains_iff.mp hkept))

theorem capacity_call (c : PatchCompiler) (call : Call) :
    (c.call call).cache.capacity = c.cache.capacity := by
  cases call with
  | createPatch source =>
    rw [PatchCompiler.call, cache_createPatch]
    split
    · exact c.cache.capacity_lookup source
    · split
      · exact c.cache.capacity_lookup source
      · exact (PatchCache.capacity_insert _ _ _).trans (c.cache.capacity_lookup source)
  | clearCache => rfl
  | getPatch _ => rfl
  | contains _ => rfl
  | needsPatch _ => rfl

/-- A request counts a hit if a patch is kept for its source. -/
theorem hits_createPatch (c : PatchCompiler) (source : String) :
    (c.createPatch source).2.cache.stats.hits =
      c.cache.stats.hits + if c.cache.contains source then 1 else 0 := by
  have hlookup : (c.cache.lookup source).2.stats.hits =
      c.cache.stats.hits + if c.cache.contains source then 1 else 0 := by
    rw [PatchCache.stats_lookup]
    split
    · rfl
    · rfl
  rw [cache_createPatch, ← hlookup]
  split
  · rfl
  · split
    · rfl
    · rw [PatchCache.stats_insert]

/-- A call leaves two compilers abreast. -/
theorem Abreast.call (h : c.Abreast c' order) (call : Call) :
    (c.call call).Abreast (c'.call call) (c.wanted order call) := by
  obtain ⟨hmaking, hcoherent⟩ := h.coherent.call call
  obtain ⟨hmaking', hcoherent'⟩ := h.coherent'.call call
  have hrecent' := recent_call h.coherent' h.recent' call
  rw [h.sources.wanted_eq] at hrecent'
  refine ⟨⟨?_, ?_, ?_⟩, hcoherent, hcoherent', ?_, recent_call h.coherent h.recent call, hrecent',
    ?_, ?_⟩
  · rw [hmaking.parser, hmaking'.parser, h.sources.parser]
  · rw [hmaking.config, hmaking'.config, h.sources.identity]
  · rw [hmaking.config, hmaking'.config, h.sources.drops]
  · rw [capacity_call, capacity_call]
    exact h.roomier
  · cases call with
    | createPatch source =>
      rw [PatchCompiler.call, PatchCompiler.call, hits_createPatch, hits_createPatch]
      apply Nat.add_le_add h.hits
      split
      · next hkept => rw [if_pos (h.contains hkept)]
      · exact Nat.zero_le _
    | clearCache => exact h.hits
    | getPatch _ => exact h.hits
    | contains _ => exact h.hits
    | needsPatch _ => exact h.hits
  · cases call with
    | createPatch source =>
      rw [PatchCompiler.call, PatchCompiler.call, parsed_createPatch, parsed_createPatch]
      by_cases hneeds' : c'.needsPatch source = true
      · -- What the larger cache lacks, the smaller one lacks too.
        have hneeds : c.needsPatch source = true := by
          rw [needsPatch, Bool.not_eq_true'] at hneeds' ⊢
          by_contra hkept
          rw [Bool.not_eq_false] at hkept
          exact absurd (h.contains hkept) (Bool.eq_false_iff.mp hneeds')
        rw [if_pos hneeds, if_pos hneeds']
        exact h.parsed.append (List.Sublist.refl _)
      · rw [if_neg hneeds']
        split
        · exact List.sublist_append_of_sublist_left h.parsed
        · exact h.parsed
    | clearCache => exact h.parsed
    | getPatch _ => exact h.parsed
    | contains _ => exact h.parsed
    | needsPatch _ => exact h.parsed

/-- Two compilers stay abreast over calls. -/
theorem Abreast.calls (h : c.Abreast c' order) (calls : List Call) :
    ∃ order', (c.calls calls).Abreast (c'.calls calls) order' := by
  induction calls generalizing c c' order with
  | nil => exact ⟨order, h⟩
  | cons call rest ih => exact ih (h.call call)

/-- What one compiler keeps for a source, the other one keeps too, but for generated keys. -/
theorem Abreast.exists_patch (h : c.Abreast c' order) {source : String} {patch : Patch}
    (hpatch : c.getPatch? source = some patch) :
    ∃ f patch', c.parser source = .ok f ∧ c'.getPatch? source = some patch' ∧
      f.eraseKeys patch.instructions = f.eraseKeys patch'.instructions ∧
      (c.config.identity = .structural → patch.instructions = patch'.instructions) := by
  have hkept : c.cache.contains source = true := Option.isSome_iff_exists.mpr ⟨patch, hpatch⟩
  obtain ⟨patch', hpatch'⟩ := Option.isSome_iff_exists.mp (h.contains hkept)
  have hmade := h.coherent source patch (PatchCache.mem_entries_of_peek? hpatch)
  have hmade' := h.coherent' source patch' (PatchCache.mem_entries_of_peek? hpatch')
  obtain ⟨f, hparse, herase, hequal⟩ := h.sources.eraseKeys_eq hmade hmade'
  exact ⟨f, patch', hparse, hpatch', herase, hequal⟩

/-- Two compilers with one parser, and settings that differ in the capacity, after the same calls,
some of which may ask for sources that cannot be compiled; keys are drawn from supplies of their own.
What the smaller cache keeps the larger one keeps as well, in the same order of use, and with the
same instructions but for generated keys.  The smaller one has no more hits, and its parser was given
at least all that the other one's parser was given.  Under both capacities the kept patches are the
compiled ones without those that were evicted and those that were dropped by clearing. -/
theorem larger_cache_saves_compilations (parser : MarkupParser) (config : PatchConfig)
    (supply supply' : Nat → String) {small large : Nat} (hroom : Roomier large small)
    (calls : List Call) :
    let start := { new parser (config.withCacheCapacity small) with supply }
    let start' := { new parser (config.withCacheCapacity large) with supply := supply' }
    let c := start.calls calls
    let c' := start'.calls calls
    c.cache.sources <+: c'.cache.sources ∧
      (∀ source patch, c.getPatch? source = some patch →
        ∃ f patch', parser source = .ok f ∧ c'.getPatch? source = some patch' ∧
          f.eraseKeys patch.instructions = f.eraseKeys patch'.instructions ∧
          (config.identity = .structural → patch.instructions = patch'.instructions)) ∧
      c.cache.stats.hits ≤ c'.cache.stats.hits ∧
      c'.parsed.Sublist c.parsed ∧ c'.parsed.length ≤ c.parsed.length ∧
      c.cache.size + c.cache.stats.evictions + start.dropped calls = c.cache.stats.compiles ∧
      c'.cache.size + c'.cache.stats.evictions + start'.dropped calls =
        c'.cache.stats.compiles := by
  intro start start' c c'
  have hcoherent : start.Coherent := coherent_of_empty rfl
  have hcoherent' : start'.Coherent := coherent_of_empty rfl
  have hrecent : start.cache.Recent [] := PatchCache.recent_of_empty rfl
  have hrecent' : start'.cache.Recent [] := PatchCache.recent_of_empty rfl
  have hstart : start.Abreast start' [] :=
    ⟨⟨rfl, rfl, rfl⟩, hcoherent, hcoherent', hroom, hrecent, hrecent', Nat.le_refl _,
      List.Sublist.refl _⟩
  obtain ⟨order, habreast⟩ := hstart.calls calls
  have hmaking := (hcoherent.calls calls).1
  refine ⟨habreast.sources_prefix, ?_, habreast.hits, habreast.parsed, habreast.parsed.length_le,
    ?_, ?_⟩
  · intro source patch hpatch
    have hfound := habreast.exists_patch hpatch
    rw [hmaking.parser, hmaking.config] at hfound
    exact hfound
  · exact (balance_calls hcoherent hrecent calls).trans (Nat.zero_add _)
  · exact (balance_calls hcoherent' hrecent' calls).trans (Nat.zero_add _)

/-- With room for one and for two patches, and keys from different supplies: the same sources in
turn, one that cannot be parsed, and a cleared cache. -/
theorem larger_cache_saves_compilations_with_room_for_two :
    let parser : MarkupParser := fun source =>
      if source = "deep" then .error (.depthLimit 1 "b")
      else .ok (Fragment.ofNodes [.element "p" [] [.text source]])
    let calls := [Call.createPatch "a", .createPatch "b", .createPatch "deep", .createPatch "a",
      .clearCache, .createPatch "b", .createPatch "a", .getPatch "b", .createPatch "b"]
    let start := { new parser (({} : PatchConfig).withCacheCapacity 1) with supply := fun _ => "k" }
    let start' := { new parser (({} : PatchConfig).withCacheCapacity 2) with
      supply := Key.generated }
    let c := start.calls calls
    let c' := start'.calls calls
    let kept := [Instruction.openElement "p" "k" [], .text "b", .closeElement "p"]
    Roomier 2 1 ∧ c.cache.sources = ["b"] ∧ c'.cache.sources = ["b", "a"] ∧
      c.cache.sources <+: c'.cache.sources ∧ c.getPatch? "b" = some ⟨5, kept⟩ ∧
      (∃ f patch', parser "b" = .ok f ∧ c'.getPatch? "b" = some patch' ∧
        f.eraseKeys kept = f.eraseKeys patch'.instructions) ∧
      c.cache.stats = ⟨0, 7, 4, 6⟩ ∧ c'.cache.stats = ⟨2, 5, 0, 4⟩ ∧
      c.parsed = ["a", "b", "deep", "a", "b", "a", "b"] ∧
      c'.parsed = ["a", "b", "deep", "b", "a"] ∧ c'.parsed.Sublist c.parsed ∧
      c'.parsed.length ≤ c.parsed.length ∧
      1 + 4 + start.dropped calls = 6 ∧ 2 + 0 + start'.dropped calls = 4 := by
  intro parser calls start start' c c' kept
  have hroom : Roomier 2 1 := by decide
  have hpatch : c.getPatch? "b" = some ⟨5, kept⟩ := by decide +kernel
  obtain ⟨hcommon, hpatches, -, hsublist, hlength, -⟩ :=
    larger_cache_saves_compilations parser {} (fun _ => "k") Key.generated hroom calls
  obtain ⟨f, patch', hparse, hpatch', herase, -⟩ := hpatches "b" _ hpatch
  exact ⟨hroom, by decide +kernel, by decide +kernel, hcommon, hpatch,
    ⟨f, patch', hparse, hpatch', herase⟩, by decide +kernel, by decide +kernel,
    by decide +kernel, by decide +kernel, hsublist, hlength, by decide +kernel, by decide +kernel⟩

end PatchCompiler
end LiveMarkup
