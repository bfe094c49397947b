import LiveMarkup.Proofs.Dom.Leaves
import Mathlib.Data.List.Nodup

/-!
# Walks up and down

The walks of a live tree see what its links say.  A walk up from a node comes by the nodes whose
subtrees the node is in; a walk down from a node meets the nodes of its subtree in document order,
each of them once, and so it ends.

Main definitions:

- `Dom.preorder`: a subtree in document order.
- `Dom.ownText?`: what a text says.

Main results:

- `Dom.WellFormed.preorder_eq`: a node comes before its children and what is below them.
- `Dom.WellFormed.mem_preorder_iff`: the nodes of a subtree.
- `Dom.WellFormed.nodup_preorder`, `Dom.WellFormed.length_preorder_le`: a subtree has each node
  once, and no more nodes than there are slots.
- `Dom.WellFormed.collectText?_eq`, `Dom.WellFormed.searchId?_eq`: what walks down find.
- `Dom.Reachable.walks_agree`: in a reachable tree the walks say the same.
-/

namespace LiveMarkup
namespace Dom

variable {d : Dom}

/-! ## Document order -/

/-- A node and everything below it down to a depth: a node before its children, earlier children
first. -/
def preorderTo (d : Dom) : Nat → NodeId → List NodeId
  | 0, _ => []
  | depth + 1, id => id :: (d.children id).flatMap (d.preorderTo depth)

/-- A node and everything below it. -/
def preorder (d : Dom) (id : NodeId) : List NodeId :=
  d.preorderTo (d.slots.size + 1) id

/-- What a text says; other nodes say nothing. -/
def ownText? (d : Dom) (id : NodeId) : Option String :=
  match d.data? id with
  | some (.text content) => some content
  | _ => none

/-- Only elements have nodes below them. -/
theorem ElementParents.children_eq_nil (hd : d.ElementParents) (h : d.WellFormed) {id : NodeId}
    (hid : d.isElement id = false) : d.children id = [] := by
  refine List.eq_nil_iff_forall_not_mem.mpr fun c hc => ?_
  rw [hd c id (h.parent_of_mem hc)] at hid
  cases hid

namespace WellFormed

/-- A node comes before its children and what is below them. -/
theorem preorder_eq (h : d.WellFormed) (id : NodeId) :
    d.preorder id = id :: (d.children id).flatMap d.preorder := by
  have hlevel : ∀ (m n : Nat) (id : NodeId), d.isLive id = true →
      (∀ c ∈ d.children id, d.preorderTo m c = d.preorderTo n c) →
      d.preorderTo (m + 1) id = d.preorderTo (n + 1) id := by
    intro m n id _ hbelow
    rw [preorderTo, preorderTo, List.flatMap_congr hbelow]
  rw [preorder, preorderTo]
  congr 1
  refine List.flatMap_congr fun c hc => ?_
  exact h.eq_of_bounds hlevel _ _ (h.isLive_child hc) (by omega) (by omega)

/-- In document order stand the nodes of the subtree. -/
theorem mem_preorder_iff (h : d.WellFormed) {a x : NodeId} : x ∈ d.preorder a ↔ d.Below a x := by
  induction a using h.wellFounded_isChild.induction with
  | _ a ih =>
    rw [h.preorder_eq, List.mem_cons, List.mem_flatMap]
    constructor
    · rintro (rfl | ⟨c, hc, hx⟩)
      · exact Below.refl d x
      · have hparent := h.parent_of_mem hc
        exact (below_of_parent? hparent).trans ((ih c hparent).mp hx)
    · intro hbelow
      rcases hbelow.eq_or_child with rfl | ⟨c, hparent, hx⟩
      · exact Or.inl rfl
      · exact Or.inr ⟨c, h.mem_of_parent hparent, (ih c hparent).mpr hx⟩

/-- No node stands twice in document order. -/
theorem nodup_preorder (h : d.WellFormed) (a : NodeId) : (d.preorder a).Nodup := by
  induction a using h.wellFounded_isChild.induction with
  | _ a ih =>
    rw [h.preorder_eq, List.nodup_cons, List.nodup_flatMap]
    refine ⟨fun hmem => ?_, fun c hc => ih c (h.parent_of_mem hc), ?_⟩
    · obtain ⟨c, hc, ha⟩ := List.mem_flatMap.mp hmem
      exact h.not_below_parent (h.parent_of_mem hc) (h.mem_preorder_iff.mp ha)
    · refine (h.children_nodup a).imp_of_mem fun hc hc' hne x hx hx' => ?_
      exact h.not_below_of_siblings (h.parent_of_mem hc) (h.parent_of_mem hc') hne
        (h.mem_preorder_iff.mp hx) (h.mem_preorder_iff.mp hx')

theorem length_preorder_le (h : d.WellFormed) {a : NodeId} (ha : d.isLive a = true) :
    (d.preorder a).length ≤ d.slots.size :=
  length_le_of_nodup (h.nodup_preorder a) fun _ hx => (h.mem_preorder_iff.mp hx).isLive ha

/-- What a walk visits that has some nodes ahead of it: the first of them, and then what a walk
visits that has its children ahead of the others. -/
theorem flatMap_preorder_cons (h : d.WellFormed) (id : NodeId) (ahead : List NodeId) :
    (id :: ahead).flatMap d.preorder = id :: (d.children id ++ ahead).flatMap d.preorder := by
  rw [List.flatMap_cons, h.preorder_eq, List.flatMap_append, List.cons_append]

/-! ## Walks down -/

/-- A step of the walk that collects texts takes the text of a node and turns to its children. -/
theorem collectText?_cons (h : d.WellFormed) (hd : d.ElementParents) (steps : Nat) (id : NodeId)
    (ahead : List NodeId) (found : String) :
    d.collectText? (steps + 1) (id :: ahead) found =
      d.collectText? steps (d.children id ++ ahead) (found ++ (d.ownText? id).getD "") := by
  have hleaf : d.isElement id = false → d.children id = [] := hd.children_eq_nil h
  rw [isElement, element?] at hleaf
  rw [collectText?, ownText?]
  cases hdata : d.data? id with
  | none => simp [hleaf, hdata]
  | some data => cases data <;> simp_all

/-- A walk that may take as many steps as there are nodes at and below those ahead collects their
texts. -/
theorem collectText?_eq (h : d.WellFormed) (hd : d.ElementParents) (steps : Nat)
    (ahead : List NodeId) (found : String)
    (hsteps : (ahead.flatMap d.preorder).length ≤ steps) :
    d.collectText? steps ahead found =
      some (found ++ String.join ((ahead.flatMap d.preorder).filterMap d.ownText?)) := by
  induction steps generalizing ahead found with
  | zero =>
    cases ahead with
    | nil => simp [collectText?]
    | cons id ahead => simp [h.flatMap_preorder_cons] at hsteps
  | succ steps ih =>
    cases ahead with
    | nil => simp [collectText?]
    | cons id ahead =>
      rw [h.flatMap_preorder_cons] at hsteps ⊢
      rw [h.collectText?_cons hd, ih _ _ (Nat.le_of_succ_le_succ hsteps), List.filterMap_cons]
      cases d.ownText? id with
      | none => simp
      | some content => simp [String.join_cons, String.append_assoc]

/-- A walk that may take as many steps as there are nodes at and below those ahead finds the first
of these with an id attribute. -/
theorem searchId?_eq (h : d.WellFormed) (id : String) (steps : Nat) (ahead : List NodeId)
    (hsteps : (ahead.flatMap d.preorder).length ≤ steps) :
    d.searchId? id steps ahead =
      some ((ahead.flatMap d.preorder).find? fun x => d.attribute? x "id" == some id) := by
  induction steps generalizing ahead with
  | zero =>
    cases ahead with
    | nil => simp [searchId?]
    | cons x ahead => simp [h.flatMap_preorder_cons] at hsteps
  | succ steps ih =>
    cases ahead with
    | nil => simp [searchId?]
    | cons x ahead =>
      rw [h.flatMap_preorder_cons] at hsteps ⊢
      rw [searchId?, List.find?_cons]
      by_cases hx : d.attribute? x "id" = some id
      · rw [if_pos hx, beq_iff_eq.mpr hx]
      · rw [if_neg hx, beq_eq_false_iff_ne.mpr hx]
        exact ih _ (Nat.le_of_succ_le_succ hsteps)

end WellFormed

/-! ## Reachable trees -/

/-- In a reachable tree, from a live node on: a live node is contained if and only if it stands in
document order; the texts of the node are those of the texts in document order, one after the other;
and the element with an id is the first in document order with this id attribute.  All three walks
end. -/
theorem Reachable.walks_agree (h : d.Reachable) (hsize : d.slots.size ≤ maxSlots) {a : NodeId}
    (ha : d.isLive a = true) :
    (∀ x, d.preorder x = x :: (d.children x).flatMap d.preorder) ∧
      (∀ n, d.isLive n = true →
        d.meets? a (d.slots.size + 1) (some n) = some (d.contains a n) ∧
          (d.contains a n = true ↔ n ∈ d.preorder a)) ∧
      (d.collectText? (d.slots.size + 1) [a] "" = some (d.textContent a) ∧
        d.textContent a = String.join ((d.preorder a).filterMap d.ownText?)) ∧
      ∀ v, d.searchId? v (d.slots.size + 1) [a] = some (d.elementById? a v) ∧
        d.elementById? a v = (d.preorder a).find? fun x => d.attribute? x "id" == some v := by
  have hwf := h.wellFormed hsize
  have hsteps : ([a].flatMap d.preorder).length ≤ d.slots.size + 1 := by
    rw [List.flatMap_singleton]
    exact (hwf.length_preorder_le ha).trans (Nat.le_succ _)
  have htext := hwf.collectText?_eq (h.elementParents hsize) _ [a] "" hsteps
  refine ⟨hwf.preorder_eq, fun n hn => ⟨hwf.meets?_eq_contains a hn, ?_⟩, ?_, fun v => ?_⟩
  · rw [hwf.contains_iff hn, hwf.mem_preorder_iff]
  · rw [textContent, htext, List.flatMap_singleton, String.empty_append, Option.getD_some]
    exact ⟨rfl, rfl⟩
  · rw [elementById?, hwf.searchId?_eq v _ [a] hsteps, List.flatMap_singleton, Option.getD_some]
    exact ⟨rfl, rfl⟩

/-- A text that was moved into the element behind it comes last there; an id attribute that stands
behind another does not count. -/
theorem Reachable.walks_agree_of_moved_text :
    let nodes := Fragment.ofNodes [.text "t",
      .element "p" [⟨"id", "a"⟩, ⟨"id", "b"⟩]
        [.comment "c", .element "i" [⟨"id", "b"⟩] [.text "u"]],
      .element "u" [⟨"id", "b"⟩] [.text "v"]]
    let d := [Operation.createElement "div", .parseInto (fun _ => .ok nodes) ⟨0, 0⟩ "",
      .appendChild ⟨2, 0⟩ ⟨1, 0⟩].foldl Dom.perform {}
    d.slots.size ≤ maxSlots ∧ d.isLive ⟨0, 0⟩ = true ∧ d.isLive ⟨1, 0⟩ = true ∧
      d.preorder ⟨0, 0⟩ =
        [⟨0, 0⟩, ⟨2, 0⟩, ⟨3, 0⟩, ⟨4, 0⟩, ⟨5, 0⟩, ⟨1, 0⟩, ⟨6, 0⟩, ⟨7, 0⟩] ∧
      d.contains ⟨0, 0⟩ ⟨1, 0⟩ = true ∧ d.contains ⟨6, 0⟩ ⟨1, 0⟩ = false ∧
      d.textContent ⟨0, 0⟩ = "utv" ∧ d.elementById? ⟨0, 0⟩ "b" = some ⟨4, 0⟩ ∧
      d.elementById? ⟨0, 0⟩ "c" = none := by
  intro nodes d
  have hsize : d.slots.size ≤ maxSlots := by decide +kernel
  have hlive : d.isLive ⟨0, 0⟩ = true ∧ d.isLive ⟨1, 0⟩ = true := by decide +kernel
  have horder : d.preorder ⟨0, 0⟩ =
      [⟨0, 0⟩, ⟨2, 0⟩, ⟨3, 0⟩, ⟨4, 0⟩, ⟨5, 0⟩, ⟨1, 0⟩, ⟨6, 0⟩, ⟨7, 0⟩] := by decide +kernel
  obtain ⟨-, hcontains, htext, hfind⟩ :=
    (Reachable.empty.foldl_perform _).walks_agree hsize hlive.1
  refine ⟨hsize, hlive.1, hlive.2, horder, ?_, by decide +kernel, ?_, ?_, ?_⟩
  · rw [(hcontains ⟨1, 0⟩ hlive.2).2, horder]
    decide
  · rw [htext.2, horder]
    decide +kernel
  · rw [(hfind "b").2, horder]
    decide +kernel
  · rw [(hfind "c").2, horder]
    decide +kernel

end Dom
end LiveMarkup
