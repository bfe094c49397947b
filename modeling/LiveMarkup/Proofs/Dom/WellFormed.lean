import LiveMarkup.Dom.Walk
import LiveMarkup.Proofs.Dom.Slots
import Mathlib.Data.List.Perm.Subperm
import Mathlib.Logic.Relation
import Mathlib.Order.WellFounded

/-!
# Well-formed trees

The links of a live tree go both ways, no child is listed twice, and following parents comes to an
end.  From this it follows that subtrees of different siblings are disjoint, and that no path is
longer than there are slots, so the bounded walks see everything.

Main definitions:

- `Dom.IsChild`, `Dom.Below`: a child of a parent, and a node in a subtree.
- `Dom.WellFormed`: the invariant of the live tree.

Main results:

- `Dom.WellFormed.not_below_of_siblings`: subtrees of siblings are disjoint.
- `Dom.WellFormed.rank_lt`: depths are below the number of slots.
- `Dom.WellFormed.wellFounded_isChild`: induction from the leaves up.
- `Dom.WellFormed.eq_of_bounds`: bounds on the depth that reach the leaves are as good as none.
- `Dom.WellFormed.contains_iff`: the bounded walk up finds every node above.
-/

namespace LiveMarkup
namespace Dom

/-! ## Reading entries -/

theorem data?_eq (d : Dom) (id : NodeId) : d.data? id = (d.entry? id).map (·.data) :=
  rfl

theorem parent?_eq (d : Dom) (id : NodeId) : d.parent? id = (d.entry? id).bind (·.parent) :=
  rfl

theorem children_eq (d : Dom) (id : NodeId) :
    d.children id = ((d.entry? id).map (·.children)).getD [] := by
  unfold children
  cases d.entry? id <;> rfl

/-- Live nodes have an entry. -/
theorem isLive_iff {d : Dom} {id : NodeId} : d.isLive id = true ↔ ∃ e, d.entry? id = some e := by
  simp [isLive, Option.isSome_iff_exists]

/-- Nodes without entry are not live. -/
theorem not_isLive_iff {d : Dom} {id : NodeId} : d.isLive id = false ↔ d.entry? id = none := by
  simp [isLive]

theorem isLive_eq_data? (d : Dom) (id : NodeId) : d.isLive id = (d.data? id).isSome := by
  simp [isLive, data?_eq]

/-- A node with a parent is live. -/
theorem isLive_of_parent? {d : Dom} {p c : NodeId} (h : d.parent? c = some p) :
    d.isLive c = true := by
  rw [parent?_eq, Option.bind_eq_some_iff] at h
  obtain ⟨e, he, -⟩ := h
  exact isLive_iff.mpr ⟨e, he⟩

/-- A node with children is live. -/
theorem isLive_of_mem_children {d : Dom} {p c : NodeId} (h : c ∈ d.children p) :
    d.isLive p = true := by
  rw [children_eq] at h
  cases hp : d.entry? p with
  | none => simp [hp] at h
  | some e => exact isLive_iff.mpr ⟨e, hp⟩

/-- Elements are live. -/
theorem isLive_of_isElement {d : Dom} {id : NodeId} (h : d.isElement id = true) :
    d.isLive id = true := by
  unfold isElement element? data? at h
  cases hid : d.entry? id with
  | none => simp [hid] at h
  | some e => exact isLive_iff.mpr ⟨e, hid⟩

/-- The slot of a live node is there. -/
theorem index_lt_of_isLive {d : Dom} {id : NodeId} (h : d.isLive id = true) :
    id.index < d.slots.size := by
  obtain ⟨e, he⟩ := isLive_iff.mp h
  exact index_lt_of_slot (Dom.entry?_eq_some_iff.mp he)

/-- There are no more live nodes than slots. -/
theorem length_le_of_nodup {d : Dom} {nodes : List NodeId} (hnodup : nodes.Nodup)
    (hlive : ∀ x ∈ nodes, d.isLive x = true) : nodes.length ≤ d.slots.size := by
  have hinj : (nodes.map (·.index)).Nodup := by
    refine hnodup.map_on ?_
    intro a ha b hb hindex
    obtain ⟨ea, hea⟩ := isLive_iff.mp (hlive a ha)
    obtain ⟨eb, heb⟩ := isLive_iff.mp (hlive b hb)
    exact eq_of_index_eq_of_filled hea heb hindex
  have hsub : nodes.map (·.index) ⊆ List.range d.slots.size := by
    intro index hindex
    obtain ⟨y, hy, rfl⟩ := List.mem_map.mp hindex
    exact List.mem_range.mpr (index_lt_of_isLive (hlive y hy))
  have hle := (List.subperm_of_subset hinj hsub).length_le
  rwa [List.length_map, List.length_range] at hle

/-! ## Subtrees -/

/-- Whether a node records another as its parent. -/
def IsChild (d : Dom) (c p : NodeId) : Prop :=
  d.parent? c = some p

/-- Whether following parents leads from `x` to `a`: `x` is `a` or lies below it. -/
def Below (d : Dom) (a x : NodeId) : Prop :=
  Relation.ReflTransGen d.IsChild x a

/-- A node counts as below itself. -/
theorem Below.refl (d : Dom) (a : NodeId) : d.Below a a :=
  Relation.ReflTransGen.refl

theorem Below.trans {d : Dom} {a b c : NodeId} (hab : d.Below a b) (hbc : d.Below b c) :
    d.Below a c :=
  Relation.ReflTransGen.trans hbc hab

/-- A node is below its parent. -/
theorem below_of_parent? {d : Dom} {p c : NodeId} (h : d.parent? c = some p) : d.Below p c :=
  Relation.ReflTransGen.single h

/-- The way up from a node starts at its parent. -/
theorem Below.eq_or_parent {d : Dom} {a x : NodeId} (h : d.Below a x) :
    x = a ∨ ∃ p, d.parent? x = some p ∧ d.Below a p := by
  rcases Relation.ReflTransGen.cases_head h with heq | ⟨p, hp, hrest⟩
  · exact Or.inl heq
  · exact Or.inr ⟨p, hp, hrest⟩

/-- The way up to a node ends at one of its children. -/
theorem Below.eq_or_child {d : Dom} {a x : NodeId} (h : d.Below a x) :
    x = a ∨ ∃ c, d.parent? c = some a ∧ d.Below c x := by
  rcases Relation.ReflTransGen.cases_tail h with heq | ⟨c, hrest, hc⟩
  · exact Or.inl heq.symm
  · exact Or.inr ⟨c, hc, hrest⟩

/-- Two nodes above a third are one above the other. -/
theorem Below.total {d : Dom} {a b x : NodeId} (ha : d.Below a x) (hb : d.Below b x) :
    d.Below a b ∨ d.Below b a := by
  have hunique : Relator.RightUnique d.IsChild := by
    intro c p q hp hq
    exact Option.some.inj (hp.symm.trans hq)
  exact (Relation.ReflTransGen.total_of_right_unique hunique ha hb).symm

/-- What is below a live node is live. -/
theorem Below.isLive {d : Dom} {a x : NodeId} (h : d.Below a x) (ha : d.isLive a = true) :
    d.isLive x = true := by
  rcases h.eq_or_parent with rfl | ⟨p, hp, -⟩
  · exact ha
  · exact isLive_of_parent? hp

/-! ## The invariant -/

/-- The free list is exact, links go both ways, no child is listed twice, and following parents
comes to an end. -/
structure WellFormed (d : Dom) : Prop extends FreeExact d where
  parent_of_mem : ∀ {p c}, c ∈ d.children p → d.parent? c = some p
  mem_of_parent : ∀ {p c}, d.parent? c = some p → c ∈ d.children p
  children_nodup : ∀ p, (d.children p).Nodup
  acyclic : WellFounded fun p c => d.IsChild c p

/-- The empty tree is well-formed. -/
theorem wellFormed_empty : WellFormed {} where
  toFreeExact := freeExact_empty
  parent_of_mem := by simp [children, entry?]
  mem_of_parent := by simp [parent?_eq, entry?]
  children_nodup := by simp [children, entry?]
  acyclic := ⟨fun x => ⟨x, fun y hy => by simp [IsChild, parent?_eq, entry?] at hy⟩⟩

/-- A change of what nodes are, or of nodes without links, keeps the invariant. -/
theorem WellFormed.of_links {d d' : Dom} (h : d.WellFormed) (hfree : d'.FreeExact)
    (hparent : ∀ x, d'.parent? x = d.parent? x) (hchildren : ∀ x, d'.children x = d.children x) :
    d'.WellFormed where
  toFreeExact := hfree
  parent_of_mem := by
    intro p c hc
    rw [hchildren] at hc
    rw [hparent]
    exact h.parent_of_mem hc
  mem_of_parent := by
    intro p c hc
    rw [hparent] at hc
    rw [hchildren]
    exact h.mem_of_parent hc
  children_nodup := by
    intro p
    rw [hchildren]
    exact h.children_nodup p
  acyclic := by
    simpa only [IsChild, hparent] using h.acyclic

namespace WellFormed

variable {d : Dom}

/-- Children are live. -/
theorem isLive_child (h : d.WellFormed) {p c : NodeId} (hc : c ∈ d.children p) :
    d.isLive c = true :=
  isLive_of_parent? (h.parent_of_mem hc)

/-- Parents are live. -/
theorem isLive_parent (h : d.WellFormed) {p c : NodeId} (hp : d.parent? c = some p) :
    d.isLive p = true :=
  isLive_of_mem_children (h.mem_of_parent hp)

/-- A parent is not below its child. -/
theorem not_below_parent (h : d.WellFormed) {p c : NodeId} (hp : d.parent? c = some p) :
    ¬ d.Below c p := by
  intro hbelow
  have hcycle : Relation.TransGen d.IsChild c c := Relation.TransGen.head' hp hbelow
  rw [← Relation.transGen_swap] at hcycle
  exact h.acyclic.transGen.irrefl.irrefl c hcycle

/-- No node is its own parent. -/
theorem ne_parent (h : d.WellFormed) {p c : NodeId} (hp : d.parent? c = some p) : c ≠ p := by
  rintro rfl
  exact h.not_below_parent hp (Below.refl d c)

/-- No node lies in the subtrees of two siblings. -/
theorem not_below_of_siblings (h : d.WellFormed) {p a b x : NodeId} (ha : d.parent? a = some p)
    (hb : d.parent? b = some p) (hne : a ≠ b) (hax : d.Below a x) : ¬ d.Below b x := by
  have key : ∀ {u v : NodeId}, d.parent? u = some p → d.parent? v = some p → u ≠ v →
      ¬ d.Below u v := by
    intro u v hu hv huv hbelow
    rcases hbelow.eq_or_parent with heq | ⟨q, hq, huq⟩
    · exact huv heq.symm
    · rw [hv] at hq
      cases hq
      exact h.not_below_parent hu huq
  intro hbx
  rcases hax.total hbx with hab | hba
  · exact key ha hb hne hab
  · exact key hb ha hne.symm hba

/-! ## Depths -/

/-- The number of nodes above a node. -/
noncomputable def rank (h : d.WellFormed) : NodeId → Nat :=
  h.acyclic.fix fun x ih =>
    match hp : d.parent? x with
    | none => 0
    | some p => ih p hp + 1

/-- A child has the rank after that of its parent. -/
theorem rank_child (h : d.WellFormed) {p c : NodeId} (hp : d.parent? c = some p) :
    h.rank c = h.rank p + 1 := by
  unfold rank
  rw [h.acyclic.fix_eq]
  split
  · next hnone => rw [hp] at hnone; cases hnone
  · next q hq =>
    rw [hp] at hq
    cases hq
    rfl

/-- Roots have rank zero. -/
theorem rank_root (h : d.WellFormed) {c : NodeId} (hp : d.parent? c = none) : h.rank c = 0 := by
  unfold rank
  rw [h.acyclic.fix_eq]
  split
  · rfl
  · next q hq => rw [hp] at hq; cases hq

/-- The nodes from a live node up are all different. -/
theorem exists_path (h : d.WellFormed) {x : NodeId} (hx : d.isLive x = true) :
    ∃ path : List NodeId, path.length = h.rank x + 1 ∧ path.Nodup ∧
      ∀ y ∈ path, d.Below y x ∧ d.isLive y = true := by
  induction x using h.acyclic.induction with
  | _ x ih =>
    cases hp : d.parent? x with
    | none => exact ⟨[x], by simp [h.rank_root hp], by simp, by simp [Below.refl, hx]⟩
    | some p =>
      obtain ⟨path, hlength, hnodup, habove⟩ := ih p hp (h.isLive_parent hp)
      refine ⟨x :: path, by simp [h.rank_child hp, hlength], ?_, ?_⟩
      · refine List.nodup_cons.mpr ⟨?_, hnodup⟩
        intro hmem
        exact h.not_below_parent hp (habove x hmem).1
      · intro y hy
        rcases List.mem_cons.mp hy with rfl | hy
        · exact ⟨Below.refl d y, hx⟩
        · exact ⟨(habove y hy).1.trans (below_of_parent? hp), (habove y hy).2⟩

/-- There are fewer nodes above a live node than there are slots. -/
theorem rank_lt (h : d.WellFormed) {x : NodeId} (hx : d.isLive x = true) :
    h.rank x < d.slots.size := by
  obtain ⟨path, hlength, hnodup, habove⟩ := h.exists_path hx
  have hle := length_le_of_nodup hnodup fun y hy => (habove y hy).2
  omega

/-- Following children comes to an end. -/
theorem wellFounded_isChild (h : d.WellFormed) : WellFounded d.IsChild := by
  refine Subrelation.wf ?_ (measure fun x => d.slots.size - h.rank x).wf
  intro c p hp
  have hrank := h.rank_child hp
  have hlt := h.rank_lt (isLive_of_parent? hp)
  show d.slots.size - h.rank c < d.slots.size - h.rank p
  omega

/-- Where each level of a recursion asks for the next one at the children only, a bound that
reaches the leaves makes no difference. -/
theorem eq_of_bounds (h : d.WellFormed) {β : Type} {f : Nat → NodeId → β}
    (hlevel : ∀ (m n : Nat) (id : NodeId), d.isLive id = true →
      (∀ c ∈ d.children id, f m c = f n c) → f (m + 1) id = f (n + 1) id) :
    ∀ (m n : Nat) {id : NodeId}, d.isLive id = true → d.slots.size ≤ m + h.rank id →
      d.slots.size ≤ n + h.rank id → f m id = f n id
  | 0, _, id, hid, hm, _ => by
    have hlt := h.rank_lt hid
    omega
  | _ + 1, 0, id, hid, _, hn => by
    have hlt := h.rank_lt hid
    omega
  | m + 1, n + 1, id, hid, hm, hn => by
    refine hlevel m n id hid fun c hc => ?_
    have hrank := h.rank_child (h.parent_of_mem hc)
    exact h.eq_of_bounds hlevel m n (h.isLive_child hc) (by omega) (by omega)

/-! ## The walk up -/

/-- The walk up from a node ends, and comes by exactly the nodes above it. -/
theorem meets?_eq_some (h : d.WellFormed) {a : NodeId} :
    ∀ (steps : Nat) (x : NodeId), h.rank x < steps →
      ∃ met, d.meets? a steps (some x) = some met ∧ (met = true ↔ d.Below a x)
  | 0, _, hlt => by omega
  | steps + 1, x, hlt => by
    rw [meets?]
    by_cases hx : x = a
    · rw [if_pos hx, hx]
      exact ⟨true, rfl, by simp [Below.refl]⟩
    · rw [if_neg hx]
      cases hp : d.parent? x with
      | none =>
        refine ⟨false, by rw [meets?], ?_⟩
        simp only [Bool.false_eq_true, false_iff]
        intro hbelow
        rcases hbelow.eq_or_parent with heq | ⟨p, hp', -⟩
        · exact hx heq
        · cases hp.symm.trans hp'
      | some p =>
        have hrank := h.rank_child hp
        obtain ⟨met, hmet, hiff⟩ := meets?_eq_some h steps p (by omega)
        refine ⟨met, hmet, hiff.trans ⟨fun hap => hap.trans (below_of_parent? hp), ?_⟩⟩
        intro hbelow
        rcases hbelow.eq_or_parent with heq | ⟨q, hq, haq⟩
        · exact absurd heq hx
        · cases hp.symm.trans hq
          exact haq

/-- The walk up from a live node ends in as many steps as there are slots, and one. -/
theorem meets?_eq_contains (h : d.WellFormed) (a : NodeId) {x : NodeId} (hx : d.isLive x = true) :
    d.meets? a (d.slots.size + 1) (some x) = some (d.contains a x) := by
  have hrank := h.rank_lt hx
  obtain ⟨met, hmet, -⟩ := h.meets?_eq_some (a := a) (d.slots.size + 1) x (by omega)
  rw [contains, hmet, Option.getD_some]

/-- A live node contains exactly the nodes in its subtree. -/
theorem contains_iff (h : d.WellFormed) {a x : NodeId} (hx : d.isLive x = true) :
    d.contains a x = true ↔ d.Below a x := by
  have hrank := h.rank_lt hx
  obtain ⟨met, hmet, hiff⟩ := h.meets?_eq_some (a := a) (d.slots.size + 1) x (by omega)
  rw [contains, hmet, Option.getD_some]
  exact hiff

end WellFormed
end Dom
end LiveMarkup
