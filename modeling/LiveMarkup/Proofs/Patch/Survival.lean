import LiveMarkup.Proofs.Dom.Heirs
import LiveMarkup.Proofs.Dom.Reachable
import LiveMarkup.Proofs.Patch.KeyChains

/-!
# Which elements survive

When two sources are shown one after the other under structural identity, an element survives if
the second source has an element with its chain, and that element takes its place; all other
elements of the first source are freed.  So elements survive when siblings with ids change places.

Main results:

- `Dom.Inherits.trail`, `Dom.Inherits.eq_of_trail`: in a tree that inherits from another, chains
  lead to the nodes that they led to before, as far as these survive.
- `PatchCompiler.elements_survive_along_chains`: what this means for two sources.
-/

namespace LiveMarkup
namespace Dom

variable {d₀ d : Dom} {target x y : NodeId} {chain : List Label}

/-! ## Chains that are taken over -/

/-- What is still live has the chain that it had. -/
theorem Inherits.trail (hin : d₀.Inherits d) (h : d.WellFormed)
    (htrail : d₀.Trail target chain x) (hlive : d.isLive x = true) : d.Trail target chain x := by
  induction htrail with
  | target => exact .target
  | child _ hparent hlabel ih =>
    have hlive₀ := isLive_of_parent? hparent
    have hparent' := (hin.parent?_eq _ hlive₀ hlive).trans hparent
    have hlabel' := (hin.label?_eq _ hlive₀ hlive).trans hlabel
    exact .child (ih (h.isLive_parent hparent')) hparent' hlabel'

/-- The last label of a trail is that of the node, and the others lead to its parent. -/
theorem Trail.of_concat {label : Label} (h : d.Trail target (chain ++ [label]) x) :
    ∃ parent, d.Trail target chain parent ∧ d.parent? x = some parent ∧
      d.label? x = some label := by
  generalize hwhole : chain ++ [label] = whole at h
  cases h with
  | target => simp at hwhole
  | child habove hparent hlabel =>
    obtain ⟨rfl, heq⟩ := List.append_inj' hwhole rfl
    cases heq
    exact ⟨_, habove, hparent, hlabel⟩

/-- A chain that led to one node only leads to that node, if it leads anywhere. -/
theorem Inherits.eq_of_trail (hin : d₀.Inherits d)
    (hunique : ∀ chain x y, d₀.Trail target chain x → d₀.Trail target chain y → x = y)
    (hx : d₀.Trail target chain x) (hy : d.Trail target chain y) : x = y := by
  induction hy generalizing x with
  | target => exact hx.eq_target rfl
  | @child chain parent y label _ hparent hlabel ih =>
    obtain ⟨parent₀, habove, hparent₀, hlabel₀⟩ := hx.of_concat
    have hsame := ih habove
    subst hsame
    by_cases hy₀ : d₀.isLive y = true
    · have hlive := isLive_of_parent? hparent
      rw [hin.parent?_eq y hy₀ hlive] at hparent
      rw [hin.label?_eq y hy₀ hlive] at hlabel
      exact hunique _ x y hx (.child habove hparent hlabel)
    · -- A new node would have taken over the child that had its label.
      exact absurd hlabel₀
        (hin.unmatched y parent₀ x label (Bool.not_eq_true _ ▸ hy₀) hparent hlabel hparent₀)

theorem isLive_of_mem_chains (h : d.WellFormed) (hx : (chain, x) ∈ d.chains target) :
    d.isLive x = true := by
  obtain ⟨htrail, hne⟩ := (mem_chains_iff h).mp hx
  cases htrail with
  | target => exact absurd rfl hne
  | child _ hparent _ => exact isLive_of_parent? hparent

/-- An element that is still live is found along its chain. -/
theorem Inherits.mem_chains (hin : d₀.Inherits d) (h₀ : d₀.WellFormed) (h : d.WellFormed)
    (hx : (chain, x) ∈ d₀.chains target) (hlive : d.isLive x = true) :
    (chain, x) ∈ d.chains target := by
  obtain ⟨htrail, hne⟩ := (mem_chains_iff h₀).mp hx
  exact (mem_chains_iff h).mpr ⟨hin.trail h htrail hlive, hne⟩

/-- Where all chains are different, one element takes the place of another exactly if both have the
same chain. -/
theorem Inherits.eq_iff_chain_eq (hin : d₀.Inherits d) (h₀ : d₀.WellFormed) (h : d.WellFormed)
    (hnodup : ((d₀.chains target).map (·.1)).Nodup) {chain' : List Label}
    (hx : (chain, x) ∈ d₀.chains target) (hy : (chain', y) ∈ d.chains target) :
    x = y ↔ chain = chain' := by
  obtain ⟨hy', -⟩ := (mem_chains_iff h).mp hy
  constructor
  · rintro rfl
    obtain ⟨hx', -⟩ := (mem_chains_iff h).mp (hin.mem_chains h₀ h hx (isLive_of_mem_chains h hy))
    exact hx'.unique h hy'
  · rintro rfl
    refine hin.eq_of_trail ?_ ((mem_chains_iff h₀).mp hx).1 hy'
    intro chain a b ha hb
    by_cases hne : chain = []
    · rw [ha.eq_target hne, hb.eq_target hne]
    · have hpair := List.inj_on_of_nodup_map hnodup ((mem_chains_iff h₀).mpr ⟨ha, hne⟩)
        ((mem_chains_iff h₀).mpr ⟨hb, hne⟩) rfl
      exact congrArg Prod.snd hpair

/-- The target of a balanced stream stays an element. -/
theorem WellFormed.isElement_patch (h : d.WellFormed) (helement : d.isElement target = true)
    {stream : List Instruction} {forest : List LiveNode}
    (hforest : Instruction.forest? stream = some forest)
    (hsize : (d.patch target stream).2.slots.size ≤ maxSlots) :
    (d.patch target stream).2.isElement target = true := by
  rw [patch_of_isElement d helement] at hsize ⊢
  rw [Patcher.slots_size_finish] at hsize
  have hfollows := (Patcher.follows_start h helement).replayAll stream hsize
  rw [Option.bind_some, Instruction.forest?_eq_some_iff.mp hforest] at hfollows
  generalize Instruction.replayAll stream
    ({ dom := d, frames := [{ parent := target }] } : Patcher) = p at hfollows
  obtain ⟨dom, frames, summary, fault⟩ := p
  cases hfollows with
  | running hfault hwf hshows =>
    cases hfault
    cases hshows with
    | target helement hnext => exact ((Shows.target helement hnext).cut hwf).1.isElement

end Dom

namespace PatchCompiler

/-- Two sources without comments and directives, in which no id is used twice, are compiled under
structural identity, perhaps by two compilers.  Their patches, followed one after the other below a
live element of a reachable tree, succeed and leave elements with the chains of the sources.  An
element of the second source has the handle of an element of the first exactly if both have the same
chain, and an element of the first source whose chain the second has not is dead in the end.  If
siblings with ids have changed places from one source to the other, every element keeps its
handle. -/
theorem elements_survive_along_chains {c c' : PatchCompiler}
    (hconfig : c.config.identity = .structural) (hconfig' : c'.config.identity = .structural)
    {source source' : String} {f f' : Fragment} (hparse : c.parser source = .ok f)
    (hparse' : c'.parser source' = .ok f')
    (hplain : Node.isPlainAll (f.forest Fragment.root) = true)
    (hplain' : Node.isPlainAll (f'.forest Fragment.root) = true)
    (hids : (Node.authoredIdsAll (f.forest Fragment.root)).Nodup)
    (hids' : (Node.authoredIdsAll (f'.forest Fragment.root)).Nodup) :
    ∃ stream stream', (c.compileStack source).1 = .ok stream ∧
      (c'.compileStack source').1 = .ok stream' ∧
      ∀ (d : Dom) (target : NodeId), d.Reachable → d.isElement target = true →
        let d₁ := (d.patch target stream).2
        let d₂ := (d₁.patch target stream').2
        d₂.slots.size ≤ Dom.maxSlots →
          (d.patch target stream).1 = .ok () ∧ (d₁.patch target stream').1 = .ok () ∧
          (d₁.chains target).map (·.1) = f.chains ∧ (d₂.chains target).map (·.1) = f'.chains ∧
          (∀ chain x, (chain, x) ∈ d₁.chains target →
            ∀ chain' y, (chain', y) ∈ d₂.chains target → (x = y ↔ chain = chain')) ∧
          (∀ chain x, (chain, x) ∈ d₁.chains target → chain ∉ f'.chains →
            d₂.isLive x = false) ∧
          (Node.Rearranged (f.forest Fragment.root) (f'.forest Fragment.root) →
            ∀ chain x, (chain, x) ∈ d₁.chains target → (chain, x) ∈ d₂.chains target) := by
  obtain ⟨stream, forest, hcompile, -, hforest, hchains⟩ :=
    exists_compileStack hconfig hparse hplain hids
  obtain ⟨stream', forest', hcompile', hkeys', hforest', hchains'⟩ :=
    exists_compileStack hconfig' hparse' hplain' hids'
  refine ⟨stream, stream', hcompile, hcompile', ?_⟩
  intro d target hreachable helement d₁ d₂ hsize
  have hsize₁ := (Dom.slots_size_le_patch d₁ target stream').trans hsize
  have h := hreachable.wellFormed ((Dom.slots_size_le_patch d target stream).trans hsize₁)
  have h₁ : d₁.WellFormed := h.patch target stream hsize₁
  have h₂ : d₂.WellFormed := h₁.patch target stream' hsize
  have helement₁ : d₁.isElement target = true := h.isElement_patch helement hforest hsize₁
  obtain ⟨hok, hshown⟩ := h.forest_patch helement hforest hsize₁
  obtain ⟨hok', hshown'⟩ := h₁.forest_patch helement₁ hforest' hsize
  have hin : d₁.Inherits d₂ := h₁.inherits_patch helement₁ hforest' hkeys' hsize
  have hfst : (d₁.chains target).map (·.1) = f.chains := by
    rw [Dom.map_fst_chains, hshown, hchains]
  have hfst' : (d₂.chains target).map (·.1) = f'.chains := by
    rw [Dom.map_fst_chains, hshown', hchains']
  have hnodup : ((d₁.chains target).map (·.1)).Nodup := hfst ▸ Fragment.nodup_chains hids
  refine ⟨hok, hok', hfst, hfst', ?_, ?_, ?_⟩
  · intro chain x hx chain' y hy
    exact hin.eq_iff_chain_eq h₁ h₂ hnodup hx hy
  · intro chain x hx hchain
    rw [← Bool.not_eq_true]
    intro hlive
    refine hchain ?_
    rw [← hfst']
    exact List.mem_map_of_mem (hin.mem_chains h₁ h₂ hx hlive)
  · intro hrearranged chain x hx
    have hchain : chain ∈ f.chains := hfst ▸ List.mem_map_of_mem hx
    have hchain' := (hrearranged.perm_chainsAll {} 0 []).mem_iff.mp hchain
    obtain ⟨⟨_, y⟩, hy, rfl⟩ : ∃ pair ∈ d₂.chains target, pair.1 = chain :=
      List.mem_map.mp (hfst' ▸ hchain')
    rw [(hin.eq_iff_chain_eq h₁ h₂ hnodup hx hy).mpr rfl]
    exact hy

/-- Below an element with leftovers of a stopped patch, two list items with ids change places, the
text in one of them changes, and the element after the list is left out.  The items and what is in
them survive, and that element is freed. -/
theorem elements_survive_along_chains_of_items :
    let x := fun text => Node.element "li" [⟨"id", "x"⟩] [.element "b" [] [.text text]]
    let y := Node.element "li" [⟨"id", "y"⟩] []
    let before := Fragment.ofNodes [.element "ul" [] [x "1", .text "-", y], .element "p" [] []]
    let after := Fragment.ofNodes [.element "ul" [] [y, x "2"]]
    let c := PatchCompiler.new (fun source => .ok (if source = "before" then before else after))
      .structural
    let stream := [Instruction.openElement "ul" "@0" [],
      .openElement "li" "x" [⟨"id", "x"⟩], .openElement "b" "x@0" [], .text "1",
      .closeElement "b", .closeElement "li", .text "-",
      .openElement "li" "y" [⟨"id", "y"⟩], .closeElement "li", .closeElement "ul",
      .openElement "p" "@1" [], .closeElement "p"]
    let stream' := [Instruction.openElement "ul" "@0" [],
      .openElement "li" "y" [⟨"id", "y"⟩], .closeElement "li",
      .openElement "li" "x" [⟨"id", "x"⟩], .openElement "b" "x@0" [], .text "2",
      .closeElement "b", .closeElement "li", .closeElement "ul"]
    let d := [Dom.Operation.createElement "main",
      .parseInto (fun _ => .ok (Fragment.ofNodes [.comment "c", .element "ul" [] [.text "old"]]))
        ⟨0, 0⟩ "",
      .patch ⟨0, 0⟩ [.text "t", .openElement "p" "left" [], .closeElement "b"]].foldl
        Dom.perform {}
    let d₁ := (d.patch ⟨0, 0⟩ stream).2
    let d₂ := (d₁.patch ⟨0, 0⟩ stream').2
    let chain := [Label.mk "ul" (some "@0"), ⟨"li", some "x"⟩, ⟨"b", some "x@0"⟩]
    (c.compileStack "before").1 = .ok stream ∧ (c.compileStack "after").1 = .ok stream' ∧
      (chain, ⟨8, 0⟩) ∈ d₁.chains ⟨0, 0⟩ ∧
      (∀ chain' z, (chain', z) ∈ d₂.chains ⟨0, 0⟩ → (⟨8, 0⟩ = z ↔ chain = chain')) ∧
      chain ∈ (d₂.chains ⟨0, 0⟩).map (·.1) ∧
      d₁.isLive ⟨12, 0⟩ = true ∧ d₂.isLive ⟨12, 0⟩ = false := by
  intro x y before after c stream stream' d d₁ d₂ chain
  have hcompile : (c.compileStack "before").1 = .ok stream := by decide +kernel
  have hcompile' : (c.compileStack "after").1 = .ok stream' := by decide +kernel
  have hparse : c.parser "before" = .ok before := rfl
  have hparse' : c.parser "after" = .ok after := rfl
  obtain ⟨_, _, hfirst, hsecond, hspec⟩ := elements_survive_along_chains rfl rfl hparse hparse'
    (by decide +kernel) (by decide +kernel) (by decide +kernel) (by decide +kernel)
  rw [hcompile] at hfirst
  rw [hcompile'] at hsecond
  cases hfirst
  cases hsecond
  have helement : d.isElement ⟨0, 0⟩ = true := by decide +kernel
  obtain ⟨-, -, -, -, hsame, hdead, -⟩ :=
    hspec d ⟨0, 0⟩ (Dom.Reachable.empty.foldl_perform _) helement (by decide +kernel)
  have hmem : (chain, ⟨8, 0⟩) ∈ d₁.chains ⟨0, 0⟩ := by decide +kernel
  refine ⟨hcompile, hcompile', hmem, hsame chain ⟨8, 0⟩ hmem, ?_, by decide +kernel, ?_⟩
  · decide +kernel
  · exact hdead [⟨"p", some "@1"⟩] ⟨12, 0⟩ (by decide +kernel) (by decide +kernel)

end PatchCompiler
end LiveMarkup
