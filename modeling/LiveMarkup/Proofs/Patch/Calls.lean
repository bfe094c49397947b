import LiveMarkup.Proofs.Patch.Coherence
import Mathlib.Data.List.Infix

/-!
# Calls of a patch compiler

Under structural identity no key is drawn, so a source is compiled to the same instructions at all
times, and a kept patch is what would be compiled anew.  The cache shows only in what is handed to
the parser, and in which patches share their instructions.

Main definitions:

- `PatchCompiler.Call`, `PatchCompiler.call`: the calls of a compiler.
- `PatchCompiler.Numbered`: serial numbers are never given twice.
- `PatchCompiler.KeptThroughout`: a source whose patch is kept over a sequence of calls.

Main results:

- `PatchCompiler.map_instructions_createPatch`: a patch has the instructions of a compilation.
- `PatchCompiler.getPatch?_call`: a call keeps a patch, loses it, or numbers a new one.
- `PatchCompiler.cache_invisible`: what the cache does to requests for patches, after any calls.
-/

namespace LiveMarkup

/-! ## Drafts that lack no key -/

namespace Draft

/-- Instructions that lack no key are the same whatever the next key is and where keys come from. -/
theorem assign_eq_of_countP_eq_zero (supply supply' : Nat → String) (m n : Nat)
    {drafts : List Draft} (h : drafts.countP lacksKey = 0) :
    assign supply m drafts = assign supply' n drafts := by
  induction drafts with
  | nil => rfl
  | cons draft rest ih =>
    cases draft with
    | openElement tag key attrs =>
      cases key with
      | some key =>
        rw [List.countP_cons_of_neg (by simp [lacksKey])] at h
        rw [assign, assign, ih h]
      | none =>
        rw [List.countP_cons_of_pos rfl] at h
        cases h
    | closeElement tag =>
      rw [List.countP_cons_of_neg (by simp [lacksKey])] at h
      rw [assign, assign, ih h]
    | text content =>
      rw [List.countP_cons_of_neg (by simp [lacksKey])] at h
      rw [assign, assign, ih h]

/-- Under structural identity no key is lacking. -/
theorem countP_lacksKey_of_drafted {config : PatchConfig} (hconfig : config.identity = .structural)
    {place : Place} {position : Nat} {top : Bool} {ns : List Node} {drafts : List Draft}
    (h : Drafted config place position top ns drafts) : drafts.countP lacksKey = 0 := by
  induction h with
  | nil => rfl
  | @element place position top tag attrs children rest inner others _ _ ihinner ihothers =>
    rw [knownKey_of_structural hconfig, List.countP_cons_of_neg (by simp [lacksKey]),
      List.countP_append, ihinner, List.countP_cons_of_neg (by simp [lacksKey]), ihothers]
  | text _ ihothers =>
    rw [List.countP_append, ihothers]
    split
    · rfl
    · rfl

end Draft

/-! ## Kept patches by their sources -/

namespace PatchCache

variable {c : PatchCache}

/-- To look a source up returns what is held for it. -/
theorem lookup_fst (c : PatchCache) (source : String) : (c.lookup source).1 = c.peek? source := by
  unfold lookup
  split
  · next patch hpatch => exact hpatch.symm
  · next hnone => exact hnone.symm

/-- A patch that is not there leaves the others in their order. -/
theorem entries_lookup_of_none {source : String} (h : c.peek? source = none) :
    (c.lookup source).2.entries = c.entries := by
  unfold lookup
  rw [h]

/-- The other entries are found without the one that is taken out. -/
theorem lookup_others {source other : String} (hne : other ≠ source) :
    (c.others source).lookup other = c.entries.lookup other := by
  unfold others
  induction c.entries with
  | nil => rfl
  | cons entry rest ih =>
    obtain ⟨key, patch⟩ := entry
    by_cases hkey : key = source
    · have hother : (other == key) = false := by
        rw [hkey]
        simpa using hne
      rw [List.filter_cons_of_neg (by simp [hkey]), ih, List.lookup_cons, hother]
    · rw [List.filter_cons_of_pos (by simp [hkey]), List.lookup_cons, List.lookup_cons, ih]

/-- To look up a source changes the order of the patches, but not what is kept for any source. -/
theorem peek?_lookup (c : PatchCache) (source other : String) :
    (c.lookup source).2.peek? other = c.peek? other := by
  unfold lookup
  split
  · next patch hpatch =>
    by_cases hother : other = source
    · rw [hother, hpatch]
      exact List.lookup_cons_self
    · have hbeq : (other == source) = false := by simpa using hother
      rw [peek?, List.lookup_cons, hbeq]
      exact lookup_others hother
  · rfl

/-- What is kept after a patch was inserted is that patch, for its source, or was kept before. -/
theorem peek?_insert {source other : String} {patch kept : Patch}
    (h : (c.insert source patch).peek? other = some kept) :
    other = source ∧ kept = patch ∨ other ≠ source ∧ c.peek? other = some kept := by
  rw [peek?, entries_insert] at h
  by_cases hother : other = source
  · subst hother
    rw [List.lookup_cons_self, Option.some.injEq] at h
    exact Or.inl ⟨rfl, h.symm⟩
  · have hbeq : (other == source) = false := by simpa using hother
    rw [List.lookup_cons, hbeq] at h
    refine Or.inr ⟨hother, ?_⟩
    simp only at h
    split at h
    · exact (lookup_others hother).symm.trans h
    · split at h
      · exact (List.dropLast_prefix c.entries).lookup_eq_some h
      · exact h

end PatchCache

namespace PatchCompiler

variable {c : PatchCompiler}

/-! ## Compiling anew -/

/-- What is compiled of a source does not depend on what is kept. -/
theorem compileStack_asked_fst (c : PatchCompiler) (source : String) :
    ((c.asked source).compileStack source).1 = (c.compileStack source).1 := by
  unfold compileStack asked
  dsimp only
  split
  · rfl
  · split <;> rfl

/-- A compilation hands its source to the parser and gives out no serial number. -/
theorem parsed_serial_compileStack (c : PatchCompiler) (source : String) :
    (c.compileStack source).2.parsed = c.parsed ++ [source] ∧
      (c.compileStack source).2.serial = c.serial := by
  unfold compileStack
  dsimp only
  split
  · exact ⟨rfl, rfl⟩
  · split
    · exact ⟨rfl, rfl⟩
    · exact ⟨rfl, rfl⟩

/-- Under structural identity, instructions that may be made of a source are those that are. -/
theorem compileStack_of_compiledFrom (hconfig : c.config.identity = .structural) {source : String}
    {instructions : List Instruction} (h : c.CompiledFrom source instructions) :
    (c.compileStack source).1 = .ok instructions := by
  obtain ⟨f, drafts, n, hparse, hdraft, rfl⟩ := h
  have hknown := Draft.countP_lacksKey_of_drafted hconfig (Draft.drafted_of_draft hdraft)
  unfold compileStack
  simp only [hparse, hdraft, Draft.assign_eq_of_countP_eq_zero c.supply c.supply n c.drawn hknown]

/-! ## One request -/

/-- What a request for a patch does: its result, and the compiler after it. -/
inductive Request (c : PatchCompiler) (source : String) :
    Except PatchError Patch × PatchCompiler → Prop where
  /-- A kept patch is given back, and nothing is parsed. -/
  | kept {patch : Patch} {c' : PatchCompiler} (hkept : c.getPatch? source = some patch)
      (hpatches : ∀ other, c'.getPatch? other = c.getPatch? other)
      (hparsed : c'.parsed = c.parsed) (hserial : c'.serial = c.serial) :
      Request c source (.ok patch, c')
  /-- The source is parsed but cannot be compiled, and what is kept stays as it is. -/
  | failed {e : PatchError} {c' : PatchCompiler} (hnone : c.getPatch? source = none)
      (hcompile : (c.compileStack source).1 = .error e)
      (hentries : c'.cache.entries = c.cache.entries)
      (hparsed : c'.parsed = c.parsed ++ [source]) (hserial : c'.serial = c.serial) :
      Request c source (.error e, c')
  /-- The source is parsed and compiled; patches of other sources may be lost. -/
  | compiled {instructions : List Instruction} {c' : PatchCompiler}
      (hnone : c.getPatch? source = none)
      (hcompile : (c.compileStack source).1 = .ok instructions)
      (hpatches : ∀ other patch, c'.getPatch? other = some patch →
        other = source ∧ patch = ⟨c.serial, instructions⟩ ∨ c.getPatch? other = some patch)
      (hparsed : c'.parsed = c.parsed ++ [source]) (hserial : c'.serial = c.serial + 1) :
      Request c source (.ok ⟨c.serial, instructions⟩, c')

/-- To create a patch is a request. -/
theorem request_createPatch (c : PatchCompiler) (source : String) :
    c.Request source (c.createPatch source) := by
  have hasked : ∀ other, (c.asked source).getPatch? other = c.getPatch? other := fun other =>
    PatchCache.peek?_lookup _ _ _
  have hfound : (c.cache.lookup source).1 = c.getPatch? source := PatchCache.lookup_fst _ _
  obtain ⟨hparsed, hserial⟩ := parsed_serial_compileStack (c.asked source) source
  obtain ⟨-, hcache⟩ := compileStack_snd (c.asked source) source
  cases hkept : (c.cache.lookup source).1 with
  | some patch =>
    rw [createPatch_of_kept hkept]
    exact .kept (hfound.symm.trans hkept) hasked rfl rfl
  | none =>
    have hnone := hfound.symm.trans hkept
    cases hcompile : ((c.asked source).compileStack source).1 with
    | error e =>
      rw [createPatch_of_error hkept hcompile]
      refine .failed hnone ((compileStack_asked_fst c source).symm.trans hcompile) ?_ hparsed
        hserial
      rw [hcache]
      exact PatchCache.entries_lookup_of_none hnone
    | ok instructions =>
      rw [createPatch_of_ok hkept hcompile, hserial]
      refine .compiled hnone ((compileStack_asked_fst c source).symm.trans hcompile) ?_ hparsed rfl
      intro other patch hpatch
      rw [getPatch?, hcache] at hpatch
      rcases PatchCache.peek?_insert hpatch with ⟨rfl, rfl⟩ | ⟨-, hold⟩
      · exact Or.inl ⟨rfl, rfl⟩
      · exact Or.inr ((hasked other).symm.trans hold)

/-- A request leaves what the compiler makes of sources as it is. -/
theorem sameMaking_createPatch (c : PatchCompiler) (source : String) :
    c.SameMaking (c.createPatch source).2 := by
  obtain ⟨hsame, -⟩ := compileStack_snd (c.asked source) source
  cases hkept : (c.cache.lookup source).1 with
  | some patch =>
    rw [createPatch_of_kept hkept]
    exact c.sameMaking_asked source
  | none =>
    cases hcompile : ((c.asked source).compileStack source).1 with
    | error e =>
      rw [createPatch_of_error hkept hcompile]
      exact ⟨hsame.parser, hsame.config, hsame.supply⟩
    | ok instructions =>
      rw [createPatch_of_ok hkept hcompile]
      exact ⟨hsame.parser, hsame.config, hsame.supply⟩

/-- A request gives the instructions or the error of a compilation, whether a patch is kept or
not. -/
theorem map_instructions_createPatch (h : c.Coherent) (hconfig : c.config.identity = .structural)
    (source : String) :
    (c.createPatch source).1.map Patch.instructions = (c.compileStack source).1 := by
  have hrequest := c.request_createPatch source
  generalize c.createPatch source = made at hrequest ⊢
  cases hrequest with
  | kept hkept =>
    have hmade := h source _ (PatchCache.mem_entries_of_peek? hkept)
    exact (compileStack_of_compiledFrom hconfig hmade).symm
  | failed _ hcompile => exact hcompile.symm
  | compiled _ hcompile => exact hcompile.symm

/-- The source of a request is handed to the parser exactly if no patch is kept for it. -/
theorem parsed_createPatch (c : PatchCompiler) (source : String) :
    (c.createPatch source).2.parsed =
      if c.needsPatch source then c.parsed ++ [source] else c.parsed := by
  have hneeds : c.needsPatch source = (c.getPatch? source).isNone := by
    rw [needsPatch, contains, PatchCache.contains, Option.not_isSome]
    rfl
  have hrequest := c.request_createPatch source
  rw [hneeds]
  generalize c.createPatch source = made at hrequest ⊢
  cases hrequest with
  | kept hkept _ hparsed => simp [hkept, hparsed]
  | failed hnone _ _ hparsed => simp [hnone, hparsed]
  | compiled hnone _ _ hparsed => simp [hnone, hparsed]

/-- A request that fails leaves what is kept and its order as they are. -/
theorem entries_createPatch_of_error {source : String} {e : PatchError}
    (h : (c.createPatch source).1 = .error e) :
    (c.createPatch source).2.cache.entries = c.cache.entries := by
  have hrequest := c.request_createPatch source
  generalize c.createPatch source = made at h hrequest ⊢
  cases hrequest with
  | kept => cases h
  | failed _ _ hentries => exact hentries
  | compiled => cases h

/-- A patch that is given is the kept one or, if none is kept, has the next serial number. -/
theorem getPatch?_of_createPatch_eq_ok {source : String} {patch : Patch}
    (h : (c.createPatch source).1 = .ok patch) :
    c.getPatch? source = some patch ∨
      patch.serial = c.serial ∧ c.serial < (c.createPatch source).2.serial := by
  have hrequest := c.request_createPatch source
  generalize c.createPatch source = made at h hrequest ⊢
  cases hrequest with
  | kept hkept =>
    cases h
    exact Or.inl hkept
  | failed => cases h
  | compiled _ _ _ _ hserial =>
    cases h
    exact Or.inr ⟨rfl, hserial ▸ Nat.lt_succ_self _⟩

/-! ## Sequences of calls -/

/-- A call of a compiler. -/
inductive Call where
  | createPatch (source : String)
  | clearCache
  | getPatch (source : String)
  | contains (source : String)
  | needsPatch (source : String)
  deriving DecidableEq

/-- The compiler after a call; looking at what is kept changes nothing. -/
def call (c : PatchCompiler) : Call → PatchCompiler
  | .createPatch source => (c.createPatch source).2
  | .clearCache => c.clearCache
  | .getPatch _ => c
  | .contains _ => c
  | .needsPatch _ => c

/-- A call leaves what the compiler makes of sources as it is, and keeps it coherent. -/
theorem Coherent.call (h : c.Coherent) (call : Call) :
    c.SameMaking (c.call call) ∧ (c.call call).Coherent := by
  cases call with
  | createPatch source => exact ⟨c.sameMaking_createPatch source, (h.createPatch source).1⟩
  | clearCache => exact ⟨⟨rfl, rfl, rfl⟩, coherent_of_empty rfl⟩
  | getPatch => exact ⟨⟨rfl, rfl, rfl⟩, h⟩
  | contains => exact ⟨⟨rfl, rfl, rfl⟩, h⟩
  | needsPatch => exact ⟨⟨rfl, rfl, rfl⟩, h⟩

/-- After a call, what is kept for a source was kept before or, if nothing was, has the serial
number that was the next. -/
theorem getPatch?_call {call : Call} {source : String} {patch : Patch}
    (h : (c.call call).getPatch? source = some patch) :
    c.getPatch? source = some patch ∨
      c.getPatch? source = none ∧ patch.serial = c.serial ∧ c.serial < (c.call call).serial := by
  cases call with
  | createPatch other =>
    have hrequest := c.request_createPatch other
    simp only [PatchCompiler.call] at h ⊢
    generalize c.createPatch other = made at h hrequest ⊢
    cases hrequest with
    | kept _ hpatches => exact Or.inl ((hpatches source).symm.trans h)
    | failed _ _ hentries =>
      rw [getPatch?, PatchCache.peek?, hentries] at h
      exact Or.inl h
    | compiled hnone _ hpatches _ hserial =>
      rcases hpatches source patch h with ⟨rfl, rfl⟩ | hold
      · exact Or.inr ⟨hnone, rfl, hserial ▸ Nat.lt_succ_self _⟩
      · exact Or.inl hold
  | clearCache => cases h
  | getPatch => exact Or.inl h
  | contains => exact Or.inl h
  | needsPatch => exact Or.inl h

theorem serial_le_call (c : PatchCompiler) (call : Call) : c.serial ≤ (c.call call).serial := by
  cases call with
  | createPatch source =>
    have hrequest := c.request_createPatch source
    simp only [PatchCompiler.call]
    generalize c.createPatch source = made at hrequest ⊢
    cases hrequest with
    | kept _ _ _ hserial => exact Nat.le_of_eq hserial.symm
    | failed _ _ _ _ hserial => exact Nat.le_of_eq hserial.symm
    | compiled _ _ _ _ hserial => exact hserial ▸ Nat.le_succ _
  | clearCache => exact Nat.le_refl _
  | getPatch => exact Nat.le_refl _
  | contains => exact Nat.le_refl _
  | needsPatch => exact Nat.le_refl _

/-- The compiler after calls. -/
def calls (c : PatchCompiler) (calls : List Call) : PatchCompiler :=
  calls.foldl call c

theorem calls_append (c : PatchCompiler) (first second : List Call) :
    c.calls (first ++ second) = (c.calls first).calls second :=
  List.foldl_append

/-- Calls leave a compiler coherent, and it makes what it made before. -/
theorem Coherent.calls (h : c.Coherent) (calls : List Call) :
    c.SameMaking (c.calls calls) ∧ (c.calls calls).Coherent := by
  induction calls generalizing c with
  | nil => exact ⟨⟨rfl, rfl, rfl⟩, h⟩
  | cons call rest ih =>
    obtain ⟨hsame, hcall⟩ := h.call call
    obtain ⟨hrest, hcalls⟩ := ih hcall
    refine ⟨⟨?_, ?_, ?_⟩, hcalls⟩
    · exact hrest.parser.trans hsame.parser
    · exact hrest.config.trans hsame.config
    · exact hrest.supply.trans hsame.supply

/-- The serial number does not go down over calls. -/
theorem serial_le_calls (c : PatchCompiler) (calls : List Call) :
    c.serial ≤ (c.calls calls).serial := by
  induction calls generalizing c with
  | nil => exact Nat.le_refl _
  | cons call rest ih => exact Nat.le_trans (serial_le_call c call) (ih (c.call call))

/-! ## Serial numbers -/

/-- The serial number `n` was given, and what is kept for a source, if anything, got a later one. -/
def Past (c : PatchCompiler) (n : Nat) (source : String) : Prop :=
  n < c.serial ∧ ∀ patch, c.getPatch? source = some patch → n < patch.serial

theorem Past.call {n : Nat} {source : String} (h : c.Past n source) (call : Call) :
    (c.call call).Past n source := by
  refine ⟨Nat.lt_of_lt_of_le h.1 (serial_le_call c call), ?_⟩
  intro patch hpatch
  rcases getPatch?_call hpatch with hold | ⟨-, hserial, -⟩
  · exact h.2 patch hold
  · exact hserial ▸ h.1

/-- What is past stays past over calls. -/
theorem Past.calls {n : Nat} {source : String} (h : c.Past n source) (calls : List Call) :
    (c.calls calls).Past n source := by
  induction calls generalizing c with
  | nil => exact h
  | cons call rest ih => exact ih (h.call call)

/-- Every kept patch has a serial number that was given. -/
def Numbered (c : PatchCompiler) : Prop :=
  ∀ source patch, c.getPatch? source = some patch → patch.serial < c.serial

theorem Numbered.call (h : c.Numbered) (call : Call) : (c.call call).Numbered := by
  intro source patch hpatch
  rcases getPatch?_call hpatch with hold | ⟨-, hserial, hlt⟩
  · exact Nat.lt_of_lt_of_le (h source patch hold) (serial_le_call c call)
  · exact hserial ▸ hlt

/-- Patches stay numbered over calls. -/
theorem Numbered.calls (h : c.Numbered) (calls : List Call) : (c.calls calls).Numbered := by
  induction calls generalizing c with
  | nil => exact h
  | cons call rest ih => exact ih (h.call call)

/-- A patch that is given has a serial number that was given. -/
theorem Numbered.serial_lt (h : c.Numbered) {source : String} {patch : Patch}
    (hok : (c.createPatch source).1 = .ok patch) :
    patch.serial < (c.createPatch source).2.serial := by
  rcases getPatch?_of_createPatch_eq_ok hok with hkept | ⟨hserial, hlt⟩
  · exact Nat.lt_of_lt_of_le (h source patch hkept) (serial_le_call c (.createPatch source))
  · exact hserial ▸ hlt

/-- Once the patch of a source is lost, another one is given for it. -/
theorem Past.sameStack_createPatch {source : String} {patch patch' : Patch}
    (h : c.Past patch.serial source) (hok : (c.createPatch source).1 = .ok patch') :
    patch'.sameStack patch = false := by
  have hlt : patch.serial < patch'.serial := by
    rcases getPatch?_of_createPatch_eq_ok hok with hkept | ⟨hserial, -⟩
    · exact h.2 patch' hkept
    · exact hserial ▸ h.1
  simpa [Patch.sameStack] using Nat.ne_of_gt hlt

/-! ## Patches that stay -/

/-- A patch of a source is kept before, between and after calls. -/
def KeptThroughout (c : PatchCompiler) (source : String) (calls : List Call) : Prop :=
  ∀ earlier, earlier <+: calls → (c.calls earlier).contains source = true

instance (c : PatchCompiler) (source : String) (calls : List Call) :
    Decidable (c.KeptThroughout source calls) :=
  decidable_of_iff (∀ earlier ∈ calls.inits, (c.calls earlier).contains source = true)
    (by simp only [KeptThroughout, List.mem_inits])

/-- While some patch of a source is kept, it is the same patch. -/
theorem KeptThroughout.getPatch?_eq {source : String} {patch : Patch} {calls : List Call}
    (h : c.KeptThroughout source calls) (hpatch : c.getPatch? source = some patch) :
    (c.calls calls).getPatch? source = some patch := by
  induction calls generalizing c with
  | nil => exact hpatch
  | cons call rest ih =>
    have hnext := h [call] ⟨rest, rfl⟩
    obtain ⟨next, hcall⟩ := Option.isSome_iff_exists.mp hnext
    have hsame : next = patch := by
      rcases getPatch?_call hcall with hold | ⟨hnone, -⟩
      · exact Option.some.inj (hold.symm.trans hpatch)
      · rw [hpatch] at hnone
        cases hnone
    refine ih ?_ (hsame ▸ hcall)
    rintro earlier ⟨later, rfl⟩
    exact h (call :: earlier) ⟨later, rfl⟩

/-- A kept patch is given. -/
theorem createPatch_of_getPatch? {source : String} {patch : Patch}
    (h : c.getPatch? source = some patch) : (c.createPatch source).1 = .ok patch := by
  rw [createPatch_of_kept ((PatchCache.lookup_fst _ _).trans h)]

/-- What is kept for a source after a request is the patch that was given. -/
theorem getPatch?_createPatch_self {source : String} {patch kept : Patch}
    (hok : (c.createPatch source).1 = .ok patch)
    (hkept : (c.createPatch source).2.getPatch? source = some kept) : kept = patch := by
  have hrequest := c.request_createPatch source
  generalize c.createPatch source = made at hok hkept hrequest
  cases hrequest with
  | kept hold hpatches =>
    cases hok
    rw [hpatches, hold] at hkept
    exact (Option.some.inj hkept).symm
  | failed => cases hok
  | compiled hnone _ hpatches =>
    cases hok
    rcases hpatches source kept hkept with ⟨-, hnew⟩ | hold
    · exact hnew
    · rw [hnone] at hold
      cases hold

/-! ## The cache -/

/-- A compiler under structural identity, with any parser and any capacity, after any calls.  A
request for a patch has the outcome of a compilation; it hands its source to the parser exactly if
no patch is kept for it; if it fails, what is kept and the order of use stay as they are.  Two
requests for one source give the same patch if it is kept all the time between them, and else
patches that do not share their instructions. -/
theorem cache_invisible (parser : MarkupParser) {config : PatchConfig}
    (hconfig : config.identity = .structural) (calls : List Call) (source : String) :
    let c := (new parser config).calls calls
    (c.createPatch source).1.map Patch.instructions = (c.compileStack source).1 ∧
      (c.createPatch source).2.parsed =
        (if c.needsPatch source then c.parsed ++ [source] else c.parsed) ∧
      (∀ e, (c.createPatch source).1 = .error e →
        (c.createPatch source).2.cache.entries = c.cache.entries) ∧
      ∀ patch, (c.createPatch source).1 = .ok patch → ∀ between : List Call,
        let c' := (c.createPatch source).2.calls between
        ((c.createPatch source).2.KeptThroughout source between →
          (c'.createPatch source).1 = .ok patch) ∧
        (¬ (c.createPatch source).2.KeptThroughout source between →
          ∀ patch', (c'.createPatch source).1 = .ok patch' → patch'.sameStack patch = false) := by
  intro c
  have hstart : (new parser config).Coherent := coherent_of_empty rfl
  obtain ⟨hsame, hcoherent⟩ := hstart.calls calls
  have hnumbered : c.Numbered := by
    refine Numbered.calls ?_ calls
    intro source patch hpatch
    cases hpatch
  refine ⟨map_instructions_createPatch hcoherent (hsame.config ▸ hconfig) source,
    c.parsed_createPatch source, fun e => entries_createPatch_of_error, ?_⟩
  intro patch hok between c'
  have hlt := hnumbered.serial_lt hok
  constructor
  · intro hkept
    obtain ⟨kept, hpatch⟩ := Option.isSome_iff_exists.mp (hkept [] List.nil_prefix)
    rw [getPatch?_createPatch_self hok hpatch] at hpatch
    exact createPatch_of_getPatch? (hkept.getPatch?_eq hpatch)
  · intro hlost patch' hok'
    -- From the moment at which nothing is kept for the source, its patches get later numbers.
    obtain ⟨earlier, ⟨later, rfl⟩, hnone⟩ :
        ∃ earlier, earlier <+: between ∧
          ¬ ((c.createPatch source).2.calls earlier).contains source = true := by
      simpa [KeptThroughout] using hlost
    have hpast : ((c.createPatch source).2.calls earlier).Past patch.serial source := by
      refine ⟨Nat.lt_of_lt_of_le hlt (serial_le_calls _ earlier), ?_⟩
      intro kept hkept
      exact absurd (Option.isSome_iff_exists.mpr ⟨kept, hkept⟩) hnone
    have hlater := hpast.calls later
    rw [← calls_append] at hlater
    exact hlater.sameStack_createPatch hok'

/-- With room for one patch, after a hit, a source that cannot be parsed and one that cannot be
compiled: the patch of the first source stays over another failure, and is lost to another
source. -/
theorem cache_invisible_with_room_for_one :
    let parser : MarkupParser := fun source =>
      if source = "deep" then .error (.depthLimit 1 "b")
      else if source = "comment" then .ok (Fragment.ofNodes [.comment "c"])
      else .ok (Fragment.ofNodes [.element "p" [] [.text source]])
    let config := PatchConfig.structural.withCacheCapacity 1
    let c := (new parser config).calls [.createPatch "b", .createPatch "a", .createPatch "a",
      .createPatch "deep", .getPatch "b", .createPatch "comment"]
    let patch : Patch := ⟨1, [.openElement "p" "@0" [], .text "a", .closeElement "p"]⟩
    let c' := (c.createPatch "a").2
    config.identity = .structural ∧ c.parsed = ["b", "a", "deep", "comment"] ∧
      (c.createPatch "a").1 = .ok patch ∧ (c.compileStack "a").1 = .ok patch.instructions ∧
      c'.parsed = c.parsed ∧
      ((c'.calls [.createPatch "deep", .needsPatch "a"]).createPatch "a").1 = .ok patch ∧
      ∀ patch', ((c'.calls [.createPatch "b", .contains "a"]).createPatch "a").1 = .ok patch' →
        patch'.sameStack patch = false := by
  intro parser config c patch c'
  have hgiven : (c.createPatch "a").1 = .ok patch := by decide +kernel
  have hneeds : c.needsPatch "a" = false := by decide +kernel
  obtain ⟨hsame, hparsed, -, hstack⟩ := @cache_invisible parser config rfl
    [.createPatch "b", .createPatch "a", .createPatch "a", .createPatch "deep", .getPatch "b",
      .createPatch "comment"] "a"
  have hkept := (hstack patch hgiven [.createPatch "deep", .needsPatch "a"]).1 (by decide +kernel)
  have hlost := (hstack patch hgiven [.createPatch "b", .contains "a"]).2 (by decide +kernel)
  rw [hgiven] at hsame
  rw [hneeds, if_neg Bool.false_ne_true] at hparsed
  refine ⟨rfl, by decide +kernel, hgiven, hsame.symm, ?_, hkept, hlost⟩
  change (c.createPatch "a").2.parsed = c.parsed
  rw [hparsed]

end PatchCompiler
end LiveMarkup
