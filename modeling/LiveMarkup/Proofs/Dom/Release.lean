import LiveMarkup.Dom.Patcher
import LiveMarkup.Proofs.Dom.Links

/-!
# Freeing subtrees

Freeing a node frees exactly the nodes of its subtree.  When the last children of a node are cut
off and freed, the nodes that stay keep their links.

Main definitions:

- `Dom.cut`: the children of a node from an index on are taken away and freed.
- `Dom.InCut`: whether a node is freed by that.

Main results:

- `Dom.WellFormed.mem_releaseOrder`: the bounded walk down finds the whole subtree.
- `Dom.foldl_releaseSubtree`: subtrees of siblings are freed independently of each other.
- `Dom.entry?_cut_of_inCut`, `Dom.entry?_cut`: every entry after a cut.
- `Dom.WellFormed.cut`: the tree stays well-formed.
-/

namespace LiveMarkup
namespace Dom

variable {d : Dom}

/-! ## Freeing several nodes -/

/-- Released nodes have no entry, and the other entries stay. -/
theorem entry?_foldl_release (ids : List NodeId) (d : Dom) (x : NodeId) :
    entry? (ids.foldl release d) x = if x ∈ ids then none else d.entry? x := by
  induction ids generalizing d with
  | nil => simp
  | cons id rest ih =>
    rw [List.foldl_cons, ih, entry?_release]
    by_cases hrest : x ∈ rest
    · simp [hrest]
    · by_cases hx : x = id <;> simp [hrest, hx]

theorem slots_size_foldl_release (ids : List NodeId) (d : Dom) :
    (ids.foldl release d).slots.size = d.slots.size := by
  induction ids generalizing d with
  | nil => rfl
  | cons id rest ih => rw [List.foldl_cons, ih, slots_size_release]

theorem slots_size_foldl_releaseSubtree (ids : List NodeId) (d : Dom) :
    (ids.foldl releaseSubtree d).slots.size = d.slots.size := by
  induction ids generalizing d with
  | nil => rfl
  | cons id rest ih => rw [List.foldl_cons, ih, releaseSubtree, slots_size_foldl_release]

/-- The free slots are exactly those that are not filled after nodes are released. -/
theorem FreeExact.foldl_release (h : d.FreeExact) (ids : List NodeId) :
    (ids.foldl Dom.release d).FreeExact := by
  induction ids generalizing d with
  | nil => exact h
  | cons id rest ih => exact ih (h.release id)

/-- A node that is not released keeps its children, even those that are. -/
theorem children_foldl_release {ids : List NodeId} {x : NodeId} (hx : x ∉ ids) :
    (ids.foldl release d).children x = d.children x := by
  rw [children_eq, children_eq, entry?_foldl_release, if_neg hx]

/-! ## The walk down -/

/-- Only what is below a node is released with it. -/
theorem below_of_mem_releaseOrder (h : d.WellFormed) {x : NodeId} :
    ∀ (depth : Nat) (id : NodeId), x ∈ d.releaseOrder depth id → d.Below id x
  | 0, _, hmem => by simp [releaseOrder] at hmem
  | depth + 1, id, hmem => by
    rcases List.mem_cons.mp hmem with rfl | hmem
    · exact Below.refl d x
    · obtain ⟨c, hc, hx⟩ := List.mem_flatMap.mp hmem
      have hparent := h.parent_of_mem (List.mem_reverse.mp hc)
      exact (below_of_parent? hparent).trans (below_of_mem_releaseOrder h depth c hx)

/-- Everything below a live node is released with it, if the depth allows for its rank. -/
theorem mem_releaseOrder_of_below (h : d.WellFormed) {x : NodeId} :
    ∀ (depth : Nat) (id : NodeId), d.isLive id = true → d.slots.size ≤ depth + h.rank id →
      d.Below id x → x ∈ d.releaseOrder depth id
  | 0, id, hlive, hdepth, _ => by
    have hlt := h.rank_lt hlive
    omega
  | depth + 1, id, hlive, hdepth, hbelow => by
    rcases hbelow.eq_or_child with rfl | ⟨c, hc, hx⟩
    · simp [releaseOrder]
    · have hrank := h.rank_child hc
      have hmem := mem_releaseOrder_of_below h depth c (isLive_of_parent? hc) (by omega) hx
      refine List.mem_cons_of_mem _ (List.mem_flatMap.mpr ⟨c, ?_, hmem⟩)
      exact List.mem_reverse.mpr (h.mem_of_parent hc)

/-- The nodes that are freed with a live node are those of its subtree. -/
theorem WellFormed.mem_releaseOrder (h : d.WellFormed) {id x : NodeId}
    (hlive : d.isLive id = true) : x ∈ d.releaseOrder d.slots.size id ↔ d.Below id x :=
  ⟨below_of_mem_releaseOrder h _ id, mem_releaseOrder_of_below h _ id hlive (by omega)⟩

/-- The walk down reads the children of the subtree only. -/
theorem releaseOrder_congr (h : d.WellFormed) {d' : Dom} :
    ∀ (depth : Nat) (id : NodeId), (∀ x, d.Below id x → d'.children x = d.children x) →
      d'.releaseOrder depth id = d.releaseOrder depth id
  | 0, _, _ => rfl
  | depth + 1, id, hsame => by
    have hflat : (d.children id).reverse.flatMap (d'.releaseOrder depth) =
        (d.children id).reverse.flatMap (d.releaseOrder depth) := by
      refine List.flatMap_congr ?_
      intro c hc
      have hbelow := below_of_parent? (h.parent_of_mem (List.mem_reverse.mp hc))
      exact releaseOrder_congr h depth c fun x hx => hsame x (hbelow.trans hx)
    rw [releaseOrder, releaseOrder, hsame id (Below.refl d id), hflat]

/-- Siblings are freed as if the subtree of each were read off before any of them is freed. -/
theorem foldl_releaseSubtree (h : d.WellFormed) {p : NodeId} :
    ∀ (siblings : List NodeId) (d' : Dom), siblings.Nodup → (∀ s ∈ siblings, d.parent? s = some p) →
      d'.slots.size = d.slots.size →
      (∀ s ∈ siblings, ∀ x, d.Below s x → d'.children x = d.children x) →
      siblings.foldl releaseSubtree d' =
        (siblings.flatMap (d.releaseOrder d.slots.size)).foldl release d'
  | [], _, _, _, _, _ => rfl
  | s :: rest, d', hnodup, hparent, hsize, hsame => by
    obtain ⟨hs, hrest⟩ := List.nodup_cons.mp hnodup
    have horder : d'.releaseOrder d'.slots.size s = d.releaseOrder d.slots.size s := by
      rw [hsize]
      exact releaseOrder_congr h _ s (hsame s (by simp))
    rw [List.foldl_cons, List.flatMap_cons, List.foldl_append, releaseSubtree, horder]
    refine foldl_releaseSubtree h rest _ hrest (fun t ht => hparent t (by simp [ht])) ?_ ?_
    · rw [slots_size_foldl_release, hsize]
    · intro t ht x hx
      have hne : s ≠ t := fun heq => hs (heq ▸ ht)
      have hapart : x ∉ d.releaseOrder d.slots.size s := fun hmem =>
        h.not_below_of_siblings (hparent s (by simp)) (hparent t (by simp [ht])) hne
          (below_of_mem_releaseOrder h _ s hmem) hx
      rw [children_foldl_release hapart]
      exact hsame t (by simp [ht]) x hx

/-! ## Cutting off the last children -/

/-- Take the children of a node from an index on away and free them. -/
def cut (d : Dom) (parent : NodeId) (next : Nat) : Dom :=
  ((d.children parent).drop next).foldl releaseSubtree
    (d.modify parent fun e => { e with children := e.children.take next })

/-- Whether a node lies in the subtree of a child from an index on. -/
def InCut (d : Dom) (parent : NodeId) (next : Nat) (x : NodeId) : Prop :=
  ∃ s ∈ (d.children parent).drop next, d.Below s x

/-- What is cut off is below the node whose children are cut. -/
theorem InCut.below (h : d.WellFormed) {parent x : NodeId} {next : Nat}
    (hx : d.InCut parent next x) : d.Below parent x := by
  obtain ⟨s, hs, hbelow⟩ := hx
  exact (below_of_parent? (h.parent_of_mem (List.mem_of_mem_drop hs))).trans hbelow

/-- No node is cut off by a cut of its own children. -/
theorem not_inCut_self (h : d.WellFormed) (parent : NodeId) (next : Nat) :
    ¬ d.InCut parent next parent := by
  rintro ⟨s, hs, hbelow⟩
  exact h.not_below_parent (h.parent_of_mem (List.mem_of_mem_drop hs)) hbelow

/-- A child is cut only with its parent, unless that is the node whose children are cut off. -/
theorem not_inCut_child (h : d.WellFormed) {parent x c : NodeId} {next : Nat}
    (hx : ¬ d.InCut parent next x) (hne : x ≠ parent) (hc : d.parent? c = some x) :
    ¬ d.InCut parent next c := by
  rintro ⟨s, hs, hbelow⟩
  rcases hbelow.eq_or_parent with rfl | ⟨p, hp, hsp⟩
  · rw [h.parent_of_mem (List.mem_of_mem_drop hs), Option.some.injEq] at hc
    exact hne hc.symm
  · rw [hc, Option.some.injEq] at hp
    exact hx ⟨s, hs, hp ▸ hsp⟩

/-- The subtrees of the children before the index are not cut. -/
theorem not_inCut_of_mem_take (h : d.WellFormed) {parent c x : NodeId} {next : Nat}
    (hc : c ∈ (d.children parent).take next) (hx : d.Below c x) : ¬ d.InCut parent next x := by
  rintro ⟨s, hs, hbelow⟩
  have hnodup := h.children_nodup parent
  rw [← List.take_append_drop next (d.children parent)] at hnodup
  have hne : c ≠ s := (List.nodup_append.mp hnodup).2.2 c hc s hs
  exact h.not_below_of_siblings (h.parent_of_mem (List.mem_of_mem_take hc))
    (h.parent_of_mem (List.mem_of_mem_drop hs)) hne hx hbelow

/-- A cut drops children from the list and then releases them and what is below them. -/
theorem cut_eq_foldl_release (h : d.WellFormed) (parent : NodeId) (next : Nat) :
    d.cut parent next =
      (((d.children parent).drop next).flatMap (d.releaseOrder d.slots.size)).foldl release
        (d.modify parent fun e => { e with children := e.children.take next }) := by
  have hparent : ∀ s ∈ (d.children parent).drop next, d.parent? s = some parent := fun s hs =>
    h.parent_of_mem (List.mem_of_mem_drop hs)
  refine foldl_releaseSubtree h _ _ ?_ hparent (slots_size_modify _ _ _) ?_
  · exact (h.children_nodup parent).sublist (List.drop_sublist _ _)
  · intro s hs x hx
    have hne : x ≠ parent := by
      rintro rfl
      exact not_inCut_self h x next ⟨s, hs, hx⟩
    rw [children_eq, children_eq, entry?_modify, if_neg hne]

theorem slots_size_cut (d : Dom) (parent : NodeId) (next : Nat) :
    (d.cut parent next).slots.size = d.slots.size := by
  rw [cut, slots_size_foldl_releaseSubtree, slots_size_modify]

/-- The nodes that a cut releases are those that it cuts off. -/
theorem mem_cut_iff (h : d.WellFormed) {parent x : NodeId} {next : Nat} :
    x ∈ ((d.children parent).drop next).flatMap (d.releaseOrder d.slots.size) ↔
      d.InCut parent next x := by
  rw [List.mem_flatMap, InCut]
  refine exists_congr fun s => and_congr_right fun hs => ?_
  exact h.mem_releaseOrder (h.isLive_child (List.mem_of_mem_drop hs))

/-- What is cut off has no entry any more. -/
theorem entry?_cut_of_inCut (h : d.WellFormed) {parent x : NodeId} {next : Nat}
    (hx : d.InCut parent next x) : entry? (d.cut parent next) x = none := by
  rw [cut_eq_foldl_release h, entry?_foldl_release, if_pos ((mem_cut_iff h).mpr hx)]

/-- A node that is not cut keeps everything except, if it is the parent, the children cut off. -/
theorem entry?_cut (h : d.WellFormed) {parent x : NodeId} {next : Nat}
    (hx : ¬ d.InCut parent next x) :
    entry? (d.cut parent next) x = (d.entry? x).map fun e =>
      { e with children := if x = parent then e.children.take next else e.children } := by
  rw [cut_eq_foldl_release h, entry?_foldl_release, if_neg (mt (mem_cut_iff h).mp hx),
    entry?_modify]
  by_cases hp : x = parent
  · simp [hp]
  · simp [hp]

/-- What is not cut off is what it was. -/
theorem data?_cut (h : d.WellFormed) {parent x : NodeId} {next : Nat}
    (hx : ¬ d.InCut parent next x) : (d.cut parent next).data? x = d.data? x := by
  rw [data?_eq, data?_eq, entry?_cut h hx, Option.map_map]
  rfl

/-- What is not cut off keeps its children, but for the node whose children are cut. -/
theorem children_cut (h : d.WellFormed) {parent x : NodeId} {next : Nat}
    (hx : ¬ d.InCut parent next x) :
    (d.cut parent next).children x =
      if x = parent then (d.children x).take next else d.children x := by
  rw [children_eq, children_eq, entry?_cut h hx]
  cases d.entry? x <;> simp

/-- What is not cut off keeps its parent. -/
theorem parent?_cut (h : d.WellFormed) {parent x : NodeId} {next : Nat}
    (hx : ¬ d.InCut parent next x) : (d.cut parent next).parent? x = d.parent? x := by
  rw [parent?_eq, parent?_eq, entry?_cut h hx]
  cases d.entry? x <;> rfl

/-- A node with a parent after a cut was not cut, and had that parent before. -/
theorem parent?_of_parent?_cut (h : d.WellFormed) {parent p c : NodeId} {next : Nat}
    (hp : (d.cut parent next).parent? c = some p) :
    ¬ d.InCut parent next c ∧ d.parent? c = some p := by
  have hc : ¬ d.InCut parent next c := by
    intro hc
    rw [parent?_eq, entry?_cut_of_inCut h hc] at hp
    cases hp
  rw [parent?_cut h hc] at hp
  exact ⟨hc, hp⟩

/-- A child after a cut was not cut, and was a child of that node before. -/
theorem mem_children_of_cut (h : d.WellFormed) {parent p c : NodeId} {next : Nat}
    (hc : c ∈ (d.cut parent next).children p) : ¬ d.InCut parent next c ∧ c ∈ d.children p := by
  have hp : ¬ d.InCut parent next p := by
    intro hp
    rw [children_eq, entry?_cut_of_inCut h hp] at hc
    simp at hc
  rw [children_cut h hp] at hc
  have hmem : c ∈ d.children p := by
    split at hc
    · exact List.mem_of_mem_take hc
    · exact hc
  have hparent := h.parent_of_mem hmem
  refine ⟨?_, hmem⟩
  intro hcut
  obtain ⟨s, hs, hbelow⟩ := id hcut
  rcases hbelow.eq_or_parent with rfl | ⟨q, hq, hsq⟩
  · have heq : p = parent :=
      Option.some.inj (hparent.symm.trans (h.parent_of_mem (List.mem_of_mem_drop hs)))
    rw [if_pos heq, heq] at hc
    exact not_inCut_of_mem_take h hc (Below.refl d c) hcut
  · rw [hparent] at hq
    cases hq
    exact hp ⟨s, hs, hsq⟩

/-- The free slots are exactly those that are not filled after a cut. -/
theorem FreeExact.cut (hfree : d.FreeExact) (h : d.WellFormed) (parent : NodeId) (next : Nat) :
    (d.cut parent next).FreeExact := by
  rw [cut_eq_foldl_release h]
  exact (hfree.modify _ _).foldl_release _

/-- A document is well-formed after a cut. -/
theorem WellFormed.cut (h : d.WellFormed) (parent : NodeId) (next : Nat) :
    (d.cut parent next).WellFormed where
  toFreeExact := h.toFreeExact.cut h parent next
  parent_of_mem := by
    intro p c hc
    obtain ⟨hcut, hmem⟩ := mem_children_of_cut h hc
    rw [parent?_cut h hcut]
    exact h.parent_of_mem hmem
  mem_of_parent := by
    intro p c hc
    obtain ⟨hcut, hparent⟩ := parent?_of_parent?_cut h hc
    have hmem := h.mem_of_parent hparent
    have hp : ¬ d.InCut parent next p := by
      rintro ⟨s, hs, hbelow⟩
      exact hcut ⟨s, hs, hbelow.trans (below_of_parent? hparent)⟩
    rw [children_cut h hp]
    split
    · next heq =>
      subst heq
      rw [← List.take_append_drop next (d.children p)] at hmem
      rcases List.mem_append.mp hmem with hmem | hmem
      · exact hmem
      · exact absurd ⟨c, hmem, Below.refl d c⟩ hcut
    · exact hmem
  children_nodup := by
    intro p
    by_cases hp : d.InCut parent next p
    · rw [children_eq, entry?_cut_of_inCut h hp]
      exact List.nodup_nil
    · rw [children_cut h hp]
      split
      · exact (h.children_nodup p).sublist (List.take_sublist _ _)
      · exact h.children_nodup p
  acyclic := by
    refine Subrelation.wf ?_ h.acyclic
    intro p c hc
    exact (parent?_of_parent?_cut h hc).2

end Dom
end LiveMarkup
