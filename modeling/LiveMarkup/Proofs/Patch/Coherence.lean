import LiveMarkup.Proofs.Patch.Drafts

/-!
# Kept patches

Whatever a cache is asked and whatever it loses, each patch that it keeps is one that its compiler
made of the source under which it is kept.

Main definitions:

- `PatchCompiler.CompiledFrom`: instructions that a compiler may make of a source.
- `PatchCompiler.Coherent`: a compiler whose kept patches are of this kind.

Main results:

- `PatchCompiler.Coherent.createPatch`: a request for a patch keeps the compiler coherent, and the
  patch is made of the source.
-/

namespace LiveMarkup

namespace PatchCache

variable {c : PatchCache}

theorem mem_entries_of_peek? {source : String} {patch : Patch} (h : c.peek? source = some patch) :
    (source, patch) ∈ c.entries := by
  obtain ⟨front, rest, hentries, -⟩ := List.lookup_eq_some_iff.mp h
  rw [hentries]
  simp

theorem mem_entries_of_mem_others {source : String} {entry : String × Patch}
    (h : entry ∈ c.others source) : entry ∈ c.entries :=
  (List.mem_filter.mp h).1

/-- A patch that is found was kept. -/
theorem mem_entries_of_lookup {source : String} {patch : Patch}
    (h : (c.lookup source).1 = some patch) : (source, patch) ∈ c.entries := by
  unfold lookup at h
  split at h
  · next kept hkept =>
    cases h
    exact mem_entries_of_peek? hkept
  · cases h

/-- To look up a source adds nothing. -/
theorem mem_entries_lookup {source : String} {entry : String × Patch}
    (h : entry ∈ (c.lookup source).2.entries) : entry ∈ c.entries := by
  unfold lookup at h
  split at h
  · next patch hpatch =>
    rcases List.mem_cons.mp h with rfl | h
    · exact mem_entries_of_peek? hpatch
    · exact mem_entries_of_mem_others h
  · exact h

/-- An insertion puts its patch first.  Behind it stay the patches of other sources; if no patch was
kept for the source, these are all or, in a full cache, all but the last one. -/
theorem entries_insert (c : PatchCache) (source : String) (patch : Patch) :
    (c.insert source patch).entries = (source, patch) ::
      if c.contains source then c.others source
      else if c.bound? = some c.size then c.entries.dropLast else c.entries := by
  change (c.push source patch).2.entries = _
  unfold push contains
  cases c.peek? source with
  | some replaced => rfl
  | none =>
    simp only [Option.isSome_none, Bool.false_eq_true, if_false]
    split
    · rfl
    · rfl

/-- To keep a patch adds nothing else. -/
theorem mem_entries_insert {source : String} {patch : Patch} {entry : String × Patch}
    (h : entry ∈ (c.insert source patch).entries) :
    entry = (source, patch) ∨ entry ∈ c.entries := by
  rw [entries_insert] at h
  rcases List.mem_cons.mp h with rfl | h
  · exact Or.inl rfl
  · refine Or.inr ?_
    split at h
    · exact mem_entries_of_mem_others h
    · split at h
      · exact (List.dropLast_sublist c.entries).mem h
      · exact h

end PatchCache

namespace PatchCompiler

variable {c c' : PatchCompiler}

/-- Instructions that a compiler may make of a source: those of its fragment, with the missing keys
drawn from some number on. -/
def CompiledFrom (c : PatchCompiler) (source : String) (instructions : List Instruction) : Prop :=
  ∃ f drafts n, c.parser source = .ok f ∧ f.draft c.config = .ok drafts ∧
    instructions = Draft.assign c.supply n drafts

/-- Every kept patch is one of the source under which it is kept. -/
def Coherent (c : PatchCompiler) : Prop :=
  ∀ source patch, (source, patch) ∈ c.cache.entries → c.CompiledFrom source patch.instructions

/-- The compilers make the same of every source. -/
structure SameMaking (c c' : PatchCompiler) : Prop where
  parser : c'.parser = c.parser
  config : c'.config = c.config
  supply : c'.supply = c.supply

theorem SameMaking.compiledFrom_iff (h : c.SameMaking c') {source : String}
    {instructions : List Instruction} :
    c'.CompiledFrom source instructions ↔ c.CompiledFrom source instructions := by
  unfold CompiledFrom
  rw [h.parser, h.config, h.supply]

/-- A compiler that keeps no patch is coherent. -/
theorem coherent_of_empty (h : c.cache.entries = []) : c.Coherent := by
  intro source patch hmem
  rw [h] at hmem
  cases hmem

/-- Coherence is kept as long as no other patches are added. -/
theorem Coherent.of_entries (h : c.Coherent) (hsame : c.SameMaking c')
    (hentries : ∀ source patch, (source, patch) ∈ c'.cache.entries →
      (source, patch) ∈ c.cache.entries ∨ c.CompiledFrom source patch.instructions) :
    c'.Coherent := by
  intro source patch hmem
  rw [hsame.compiledFrom_iff]
  rcases hentries source patch hmem with hold | hnew
  · exact h source patch hold
  · exact hnew

/-- Compiling anew changes neither what a compiler makes of a source nor what it keeps. -/
theorem compileStack_snd (c : PatchCompiler) (source : String) :
    c.SameMaking (c.compileStack source).2 ∧ (c.compileStack source).2.cache = c.cache := by
  unfold compileStack
  dsimp only
  split
  · exact ⟨⟨rfl, rfl, rfl⟩, rfl⟩
  · split
    · exact ⟨⟨rfl, rfl, rfl⟩, rfl⟩
    · exact ⟨⟨rfl, rfl, rfl⟩, rfl⟩

theorem compiledFrom_of_compileStack {source : String} {instructions : List Instruction}
    (h : (c.compileStack source).1 = .ok instructions) : c.CompiledFrom source instructions := by
  obtain ⟨f, drafts, hparse, hdraft, hassign⟩ := compileStack_eq_ok h
  exact ⟨f, drafts, c.drawn, hparse, hdraft, hassign⟩

/-! ## Requests for patches -/

/-- The compiler after its cache was asked for a source. -/
def asked (c : PatchCompiler) (source : String) : PatchCompiler :=
  { c with cache := (c.cache.lookup source).2 }

theorem sameMaking_asked (c : PatchCompiler) (source : String) : c.SameMaking (c.asked source) :=
  ⟨rfl, rfl, rfl⟩

/-- A patch that is kept is given back. -/
theorem createPatch_of_kept {source : String} {patch : Patch}
    (h : (c.cache.lookup source).1 = some patch) :
    c.createPatch source = (.ok patch, c.asked source) := by
  unfold createPatch asked
  generalize c.cache.lookup source = looked at h ⊢
  obtain ⟨found, cache⟩ := looked
  cases h
  rfl

/-- A source without a kept patch is compiled; if that fails nothing is kept. -/
theorem createPatch_of_error {source : String} {e : PatchError}
    (h : (c.cache.lookup source).1 = none)
    (hcompile : ((c.asked source).compileStack source).1 = .error e) :
    c.createPatch source = (.error e, ((c.asked source).compileStack source).2) := by
  unfold createPatch asked at *
  generalize c.cache.lookup source = looked at h hcompile ⊢
  obtain ⟨found, cache⟩ := looked
  cases h
  dsimp only at hcompile ⊢
  generalize compileStack { c with cache } source = compiled at hcompile ⊢
  obtain ⟨result, c'⟩ := compiled
  cases hcompile
  rfl

/-- A source without a kept patch is compiled, and its patch is kept. -/
theorem createPatch_of_ok {source : String} {instructions : List Instruction}
    (h : (c.cache.lookup source).1 = none)
    (hcompile : ((c.asked source).compileStack source).1 = .ok instructions) :
    let compiled := ((c.asked source).compileStack source).2
    let patch : Patch := { serial := compiled.serial, instructions }
    c.createPatch source = (.ok patch,
      { compiled with
        serial := compiled.serial + 1
        cache := compiled.cache.insert source patch }) := by
  unfold createPatch asked at *
  generalize c.cache.lookup source = looked at h hcompile ⊢
  obtain ⟨found, cache⟩ := looked
  cases h
  dsimp only at hcompile ⊢
  generalize compileStack { c with cache } source = compiled at hcompile ⊢
  obtain ⟨result, c'⟩ := compiled
  cases hcompile
  rfl

/-- A request for a patch keeps the compiler coherent, and the patch is made of the source, whether
it was kept or not. -/
theorem Coherent.createPatch (h : c.Coherent) (source : String) :
    (c.createPatch source).2.Coherent ∧
      ∀ patch, (c.createPatch source).1 = .ok patch →
        c.CompiledFrom source patch.instructions := by
  have hasked : ∀ entry, entry ∈ (c.asked source).cache.entries → entry ∈ c.cache.entries :=
    fun entry => PatchCache.mem_entries_lookup
  cases hkept : (c.cache.lookup source).1 with
  | some patch =>
    rw [createPatch_of_kept hkept]
    have hpatch := h source patch (PatchCache.mem_entries_of_lookup hkept)
    refine ⟨h.of_entries (c.sameMaking_asked source) fun s p hp => Or.inl (hasked _ hp), ?_⟩
    rintro _ ⟨⟩
    exact hpatch
  | none =>
    obtain ⟨hsame, hcache⟩ := compileStack_snd (c.asked source) source
    have hmaking : c.SameMaking ((c.asked source).compileStack source).2 :=
      ⟨hsame.parser, hsame.config, hsame.supply⟩
    cases hcompile : ((c.asked source).compileStack source).1 with
    | error e =>
      rw [createPatch_of_error hkept hcompile]
      refine ⟨h.of_entries hmaking fun s p hp => Or.inl (hasked _ (hcache ▸ hp)), ?_⟩
      rintro _ ⟨⟩
    | ok instructions =>
      rw [createPatch_of_ok hkept hcompile]
      have hmade : c.CompiledFrom source instructions :=
        (c.sameMaking_asked source).compiledFrom_iff.mp (compiledFrom_of_compileStack hcompile)
      refine ⟨h.of_entries ⟨hmaking.parser, hmaking.config, hmaking.supply⟩ ?_, ?_⟩
      · intro s p hp
        rcases PatchCache.mem_entries_insert hp with heq | hp
        · cases heq
          exact Or.inr hmade
        · exact Or.inl (hasked _ (hcache ▸ hp))
      · rintro _ ⟨⟩
        exact hmade

end PatchCompiler
end LiveMarkup
