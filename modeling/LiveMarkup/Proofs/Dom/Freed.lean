import LiveMarkup.Proofs.Dom.Outside
import LiveMarkup.Proofs.Dom.Reachable

/-!
# What a patch frees

A patch frees nodes inside its target only, and where it frees a node it frees all that lies below.
So the freed nodes are known by those of them whose parents stay: these are the children that were
left over in some frame.

Main definitions:

- `Dom.Inside`: the nodes inside a target.
- `Dom.freed`, `Dom.freedRoots`: the freed nodes, and those of them whose parents stay.

Main results:

- `Dom.freedRoots_placed`, `Dom.encard_freedRoots_cut`: what is freed by the steps of a patch.
- `Dom.FreeExact.size_add_encard`: the sizes of two trees.
-/

namespace LiveMarkup
namespace Dom

variable {d₀ d d' : Dom} {target x : NodeId} {frame : Cursor} {used : List String}

/-! ## Nodes inside a target -/

/-- A node lies below a target and is another one. -/
def Inside (d : Dom) (target x : NodeId) : Prop :=
  d.Below target x ∧ x ≠ target

/-- What lies inside a live node is live. -/
theorem Inside.isLive (hx : d.Inside target x) (hlive : d.isLive target = true) :
    d.isLive x = true :=
  hx.1.isLive hlive

/-- What lies right below what is below a node lies inside it. -/
theorem WellFormed.inside_of_parent? (h : d.WellFormed) {p : NodeId} (hp : d.parent? x = some p)
    (hbelow : d.Below target p) : d.Inside target x := by
  refine ⟨hbelow.trans (below_of_parent? hp), ?_⟩
  rintro rfl
  exact h.not_below_parent hp hbelow

/-- What changes below a target only does not bring a live node inside it. -/
theorem SameOutside.inside (hsame : d.SameOutside d' target) (h : d.WellFormed)
    (hlive : d.isLive x = true) (hx : d'.Inside target x) : d.Inside target x :=
  ⟨hsame.below_of_below h hlive hx.1, hx.2⟩

/-- What stays live stays inside. -/
theorem Continues.inside (hcont : d₀.Continues d) (h₀ : d₀.WellFormed) (h : d.WellFormed)
    (hx : d₀.Inside target x) (hlive : d.isLive x = true) : d.Inside target x := by
  refine ⟨?_, hx.2⟩
  have hbelow := hx.1
  clear hx
  induction hbelow using Relation.ReflTransGen.head_induction_on with
  | refl => exact Below.refl d target
  | @head x p hparent hrest ih =>
    have hlive₀ := (below_of_parent? hparent).isLive (h₀.isLive_parent hparent)
    have hp : d.parent? x = some p := (hcont.parent?_eq x hlive₀ hlive).trans hparent
    exact (ih (h.isLive_parent hp)).trans (below_of_parent? hp)

/-! ## The roots of what is freed -/

/-- The nodes that are live in one tree and no longer in another. -/
def freed (d₀ d : Dom) : Set NodeId :=
  {x | d₀.isLive x = true ∧ d.isLive x = false}

/-- The freed nodes whose parents were not freed. -/
def freedRoots (d₀ d : Dom) : Set NodeId :=
  {x ∈ d₀.freed d | ∃ p, d₀.parent? x = some p ∧ p ∉ d₀.freed d}

/-- The roots of what was freed are freed nodes whose parents are live. -/
theorem mem_freedRoots (h₀ : d₀.WellFormed) : x ∈ d₀.freedRoots d ↔
    d₀.isLive x = true ∧ d.isLive x = false ∧
      ∃ p, d₀.parent? x = some p ∧ d.isLive p = true := by
  have hfreed : x ∈ d₀.freed d ↔ d₀.isLive x = true ∧ d.isLive x = false := Iff.rfl
  rw [freedRoots, Set.mem_sep_iff, hfreed, and_assoc]
  refine and_congr_right fun _ => and_congr_right fun _ => exists_congr fun p =>
    and_congr_right fun hp => ?_
  simp [freed, h₀.isLive_parent hp]

/-- Nothing was freed from a document to itself. -/
theorem freedRoots_self (d : Dom) : d.freedRoots d = ∅ := by
  refine Set.eq_empty_of_forall_notMem fun x hx => ?_
  obtain ⟨⟨hlive, hdead⟩, -⟩ := hx
  rw [hlive] at hdead
  cases hdead

/-- To fill slots frees nothing. -/
theorem freedRoots_placed (hcont : d₀.Continues d) (h₀ : d₀.WellFormed) (hfills : d.Fills d') :
    d₀.freedRoots d' = d₀.freedRoots d := by
  ext x
  rw [mem_freedRoots h₀, mem_freedRoots h₀]
  refine and_congr_right fun hx₀ => ?_
  rw [hcont.isLive_of_fills hfills hx₀]
  refine and_congr_right fun _ => exists_congr fun p => and_congr_right fun hp => ?_
  rw [hcont.isLive_of_fills hfills (h₀.isLive_parent hp)]

/-- What lies behind a cursor has still all the children that it had. -/
theorem Awaits.not_inCut_of_freed (haw : d₀.Awaits d used frame) (h₀ : d₀.WellFormed)
    (h : d.WellFormed) {p : NodeId} (hp : d₀.parent? x = some p) (hx : d.isLive x = false) :
    ¬ d.InCut frame.parent frame.next p := by
  rintro ⟨s, hs, hbelow⟩
  have hmem := h₀.mem_of_parent hp
  rw [← haw.below s hs p ((haw.below_iff h₀ h hs).mp hbelow)] at hmem
  rw [h.isLive_child hmem] at hx
  cases hx

/-- When the innermost frame is closed, the children that are left over are the roots of what is
freed. -/
theorem freedRoots_cut (hcont : d₀.Continues d) (haw : d₀.Awaits d used frame) (h₀ : d₀.WellFormed)
    (h : d.WellFormed) (hlive : d.isLive frame.parent = true) :
    d₀.freedRoots (d.cut frame.parent frame.next) =
      d₀.freedRoots d ∪ {s | s ∈ (d.children frame.parent).drop frame.next} := by
  have hfrees := frees_cut d frame.parent frame.next
  ext x
  rw [Set.mem_union, mem_freedRoots h₀, mem_freedRoots h₀]
  constructor
  · rintro ⟨hx₀, hx', p, hp, hp'⟩
    cases hx : d.isLive x with
    | false => exact Or.inl ⟨hx₀, rfl, p, hp, hfrees.isLive hp'⟩
    | true =>
      -- The node is freed just now, so it lies behind the cursor, but its parent does not.
      have hcut : d.InCut frame.parent frame.next x := by
        by_contra hcut
        rw [isLive_cut h hcut, hx] at hx'
        cases hx'
      obtain ⟨s, hs, hbelow⟩ := hcut
      rcases hbelow.eq_or_parent with rfl | ⟨q, hq, hbelow⟩
      · exact Or.inr hs
      · rw [hcont.parent?_eq x hx₀ hx, hp] at hq
        cases hq
        exact absurd ⟨s, hs, hbelow⟩ (not_inCut_of_isLive h hp')
  · rintro (⟨hx₀, hx, p, hp, hplive⟩ | hs)
    · refine ⟨hx₀, ?_, p, hp, ?_⟩
      · rw [← Bool.not_eq_true]
        intro hx'
        rw [hfrees.isLive hx'] at hx
        cases hx
      · rw [isLive_cut h (haw.not_inCut_of_freed h₀ h hp hx), hplive]
    · have hparent := h.parent_of_mem (List.mem_of_mem_drop hs)
      have hx₀ := haw.live x hs
      refine ⟨hx₀, ?_, frame.parent, ?_, ?_⟩
      · rw [← Bool.not_eq_true]
        exact fun hx' => not_inCut_of_isLive h hx' ⟨x, hs, Below.refl d x⟩
      · rw [← hcont.parent?_eq x hx₀ (isLive_of_parent? hparent), hparent]
      · rw [isLive_cut h (not_inCut_self h _ _), hlive]

theorem encard_mem_of_nodup {nodes : List NodeId} (h : nodes.Nodup) :
    {x | x ∈ nodes}.encard = nodes.length := by
  rw [← List.coe_toFinset, Set.encard_coe_eq_coe_finsetCard, List.toFinset_card_of_nodup h]

/-- When the innermost frame is closed, as many subtrees are freed as children are left over. -/
theorem encard_freedRoots_cut (hcont : d₀.Continues d) (haw : d₀.Awaits d used frame)
    (h₀ : d₀.WellFormed) (h : d.WellFormed) (hlive : d.isLive frame.parent = true) :
    (d₀.freedRoots (d.cut frame.parent frame.next)).encard =
      (d₀.freedRoots d).encard + ((d.children frame.parent).drop frame.next).length := by
  have hdisjoint : Disjoint (d₀.freedRoots d)
      {s | s ∈ (d.children frame.parent).drop frame.next} := by
    refine Set.disjoint_left.mpr fun x hx hs => ?_
    obtain ⟨⟨-, hdead⟩, -⟩ := hx
    rw [h.isLive_child (List.mem_of_mem_drop hs)] at hdead
    cases hdead
  have hnodup := (h.children_nodup frame.parent).sublist (List.drop_sublist frame.next _)
  rw [freedRoots_cut hcont haw h₀ h hlive, Set.encard_union_eq hdisjoint,
    encard_mem_of_nodup hnodup]

/-! ## Sizes -/

/-- The sizes of two trees differ by the nodes that were freed and made. -/
theorem FreeExact.size_add_encard (h₀ : d₀.FreeExact) (h : d.FreeExact) :
    d.size + (d₀.freed d).encard = d₀.size + (d.freed d₀).encard := by
  have hdiff : ∀ d₁ d₂ : Dom,
      d₁.freed d₂ = {x | d₁.isLive x = true} \ {x | d₂.isLive x = true} := by
    intro d₁ d₂
    ext x
    simp [freed]
  rw [hdiff d₀ d, hdiff d d₀, ← h.encard_isLive, ← h₀.encard_isLive,
    ← Set.encard_sdiff_add_encard_inter {x | d.isLive x = true} {x | d₀.isLive x = true},
    ← Set.encard_sdiff_add_encard_inter {x | d₀.isLive x = true} {x | d.isLive x = true},
    Set.inter_comm {x | d.isLive x = true}]
  ac_rfl

end Dom
end LiveMarkup
