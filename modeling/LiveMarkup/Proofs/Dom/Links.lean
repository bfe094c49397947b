import LiveMarkup.Proofs.Dom.WellFormed

/-!
# Moving nodes

Taking a node from its parent and putting it under another changes links only.  A node may be put
under any live node that is not in its own subtree.

Main results:

- `Dom.entry?_detach`, `Dom.entry?_insertChild`: every entry after a node is taken out or moved.
- `Dom.WellFormed.detach`, `Dom.WellFormed.insertChild`: the tree stays well-formed.
-/

namespace LiveMarkup
namespace Dom

variable {d : Dom}

/-! ## Taking a node from its parent -/

theorem slots_size_detach (d : Dom) (id : NodeId) : (d.detach id).slots.size = d.slots.size := by
  unfold detach
  split
  · rfl
  · rw [slots_size_modify, slots_size_modify]

/-- To take a node from its parent leaves the free slots. -/
theorem FreeExact.detach (h : d.FreeExact) (id : NodeId) : (d.detach id).FreeExact := by
  unfold Dom.detach
  split
  · exact h
  · exact (h.modify _ _).modify _ _

/-- Only its parent lists a node, so the lists of all others stay as they are without it. -/
theorem map_filter_children (h : d.WellFormed) {id x : NodeId} (hne : d.parent? id ≠ some x) :
    (d.entry? x).map (fun e => { e with children := e.children.filter fun c => c != id }) =
      d.entry? x := by
  cases hx : d.entry? x with
  | none => rfl
  | some e =>
    have hnotin : id ∉ e.children := by
      intro hmem
      have hchild : id ∈ d.children x := by simpa [children_eq, hx] using hmem
      exact hne (h.parent_of_mem hchild)
    have hfilter : e.children.filter (fun c => c != id) = e.children := by
      refine List.filter_eq_self.mpr ?_
      intro c hc
      simpa using fun heq : c = id => hnotin (heq ▸ hc)
    simp [hfilter]

/-- A node that is taken out has no parent, and is among no children. -/
theorem entry?_detach (h : d.WellFormed) (id x : NodeId) :
    entry? (d.detach id) x = (d.entry? x).map fun e =>
      { e with
        parent := if x = id then none else e.parent
        children := e.children.filter fun c => c != id } := by
  cases hp : d.parent? id with
  | none =>
    have hroot : ∀ e, d.entry? id = some e → e.parent = none := by
      intro e he
      simpa [parent?_eq, he] using hp
    have hsame := map_filter_children h (show d.parent? id ≠ some x by simp [hp])
    simp only [Dom.detach, hp]
    by_cases hx : x = id
    · subst hx
      cases he : d.entry? x with
      | none => rfl
      | some e =>
        simp only [he, Option.map_some, Option.some.injEq] at hsame
        have hchildren := congrArg LiveEntry.children hsame
        simp only at hchildren
        obtain ⟨data, parent, children⟩ := e
        have hparent : parent = none := hroot _ he
        simp [hparent, hchildren]
    · simp only [if_neg hx]
      exact hsame.symm
  | some p =>
    have hne : id ≠ p := h.ne_parent hp
    simp only [Dom.detach, hp]
    rw [Dom.entry?_modify]
    by_cases hx : x = id
    · subst hx
      have hsame := map_filter_children h (show d.parent? x ≠ some x by
        rw [hp]
        exact fun heq => hne (Option.some.inj heq).symm)
      rw [if_pos rfl, entry?_modify, if_neg hne]
      conv_lhs => rw [← hsame]
      rw [Option.map_map]
      simp [Function.comp_def]
    · rw [if_neg hx, entry?_modify]
      simp only [if_neg hx]
      by_cases hxp : x = p
      · rw [if_pos hxp, hxp]
      · rw [if_neg hxp]
        refine (map_filter_children h ?_).symm
        rw [hp]
        exact fun heq => hxp (Option.some.inj heq).symm

/-- To take a node from its parent leaves what nodes are. -/
theorem data?_detach (h : d.WellFormed) (id x : NodeId) :
    (d.detach id).data? x = d.data? x := by
  rw [data?_eq, data?_eq, entry?_detach h, Option.map_map]
  rfl

/-- Only the node that is taken from its parent has another parent than before, namely none. -/
theorem parent?_detach (h : d.WellFormed) (id x : NodeId) :
    (d.detach id).parent? x = if x = id then none else d.parent? x := by
  rw [parent?_eq, parent?_eq, entry?_detach h]
  cases d.entry? x <;> simp

/-- A node that is taken from its parent is nowhere among the children. -/
theorem children_detach (h : d.WellFormed) (id x : NodeId) :
    (d.detach id).children x = (d.children x).filter fun c => c != id := by
  rw [children_eq, children_eq, entry?_detach h]
  cases d.entry? x <;> simp

/-- To take a node from its parent leaves all nodes live. -/
theorem isLive_detach (h : d.WellFormed) (id x : NodeId) :
    (d.detach id).isLive x = d.isLive x := by
  rw [isLive_eq_data?, isLive_eq_data?, data?_detach h]

/-- After a node is taken out, `x` lies below `a` only if it did before. -/
theorem below_of_below_detach (h : d.WellFormed) {id a x : NodeId}
    (hbelow : (d.detach id).Below a x) : d.Below a x := by
  refine Relation.ReflTransGen.mono ?_ _ _ hbelow
  intro c p hc
  rw [IsChild, parent?_detach h] at hc
  split at hc
  · cases hc
  · exact hc

/-- A document is well-formed after a node is taken from its parent. -/
theorem WellFormed.detach (h : d.WellFormed) (id : NodeId) : (d.detach id).WellFormed where
  toFreeExact := h.toFreeExact.detach id
  parent_of_mem := by
    intro p c hc
    rw [children_detach h] at hc
    obtain ⟨hmem, hne⟩ := List.mem_filter.mp hc
    rw [parent?_detach h, if_neg (by simpa using hne)]
    exact h.parent_of_mem hmem
  mem_of_parent := by
    intro p c hc
    rw [parent?_detach h] at hc
    split at hc
    · cases hc
    · next hne =>
      rw [children_detach h]
      exact List.mem_filter.mpr ⟨h.mem_of_parent hc, by simpa using hne⟩
  children_nodup := by
    intro p
    rw [children_detach h]
    exact (h.children_nodup p).filter _
  acyclic := by
    refine Subrelation.wf ?_ h.acyclic
    intro p c hc
    rw [IsChild, parent?_detach h] at hc
    split at hc
    · cases hc
    · exact hc

/-! ## Putting a node under a parent -/

/-- Put a node without parent among the children of another, before the child at an index. -/
def attach (d : Dom) (parent : NodeId) (index : Nat) (child : NodeId) : Dom :=
  (d.modify parent fun e =>
    { e with children := e.children.insertIdx (min index e.children.length) child }).modify child
      fun e => { e with parent := some parent }

/-- A node is moved by taking it out and putting it elsewhere. -/
theorem insertChild_eq_attach (d : Dom) (parent : NodeId) (index : Nat) (child : NodeId) :
    d.insertChild parent index child = (d.detach child).attach parent index child :=
  rfl

theorem slots_size_insertChild (d : Dom) (parent : NodeId) (index : Nat) (child : NodeId) :
    (d.insertChild parent index child).slots.size = d.slots.size := by
  rw [insertChild_eq_attach, attach, slots_size_modify, slots_size_modify, slots_size_detach]

/-- To link a node under another leaves the free slots. -/
theorem FreeExact.attach (h : d.FreeExact) (parent : NodeId) (index : Nat) (child : NodeId) :
    (d.attach parent index child).FreeExact :=
  (h.modify _ _).modify _ _

/-- The entries after a node is linked under another. -/
theorem entry?_attach {parent child : NodeId} (hne : parent ≠ child) (index : Nat) (x : NodeId) :
    entry? (d.attach parent index child) x = (d.entry? x).map fun e =>
      { e with
        parent := if x = child then some parent else e.parent
        children :=
          if x = parent then e.children.insertIdx (min index e.children.length) child
          else e.children } := by
  rw [attach, entry?_modify, entry?_modify, entry?_modify]
  by_cases hx : x = child
  · subst hx
    simp [Ne.symm hne]
  · by_cases hxp : x = parent
    · subst hxp
      simp [hne]
    · simp [hx, hxp]

/-- Only the node that is linked has another parent than before. -/
theorem parent?_attach {parent child : NodeId} (hne : parent ≠ child)
    (hchild : d.isLive child = true) (index : Nat) (x : NodeId) :
    (d.attach parent index child).parent? x = if x = child then some parent else d.parent? x := by
  rw [parent?_eq, parent?_eq, entry?_attach hne]
  by_cases hx : x = child
  · subst hx
    obtain ⟨e, he⟩ := isLive_iff.mp hchild
    simp [he]
  · cases d.entry? x <;> simp [hx]

/-- The node is put at the index, or last if there are fewer children. -/
theorem children_attach {parent child : NodeId} (hne : parent ≠ child)
    (hparent : d.isLive parent = true) (index : Nat) (x : NodeId) :
    (d.attach parent index child).children x =
      if x = parent then (d.children x).insertIdx (min index (d.children x).length) child
      else d.children x := by
  rw [children_eq, children_eq, entry?_attach hne]
  by_cases hx : x = parent
  · subst hx
    obtain ⟨e, he⟩ := isLive_iff.mp hparent
    simp [he]
  · cases d.entry? x <;> simp [hx]

/-- The children after a node is linked are those before it and this one. -/
theorem mem_children_attach {parent child : NodeId} (hne : parent ≠ child)
    (hparent : d.isLive parent = true) (index : Nat) {p c : NodeId} :
    c ∈ (d.attach parent index child).children p ↔ p = parent ∧ c = child ∨ c ∈ d.children p := by
  rw [children_attach hne hparent]
  split
  · next hp =>
    rw [List.mem_insertIdx (Nat.min_le_right _ _)]
    simp [hp]
  · next hp => simp [hp]

/-- After a node is put under a parent, the way up from any node comes to an end. -/
theorem acyclic_attach (h : d.WellFormed) {parent child : NodeId} (hne : parent ≠ child)
    (hchild : d.isLive child = true) (hbelow : ¬ d.Below child parent) (index : Nat) :
    WellFounded fun p c => (d.attach parent index child).IsChild c p := by
  have hstep : ∀ c p, (d.attach parent index child).IsChild c p →
      c = child ∧ p = parent ∨ c ≠ child ∧ d.IsChild c p := by
    intro c p hc
    rw [IsChild, parent?_attach hne hchild] at hc
    split at hc
    · next heq => exact Or.inl ⟨heq, (Option.some.inj hc).symm⟩
    · next hne => exact Or.inr ⟨hne, hc⟩
  -- First the nodes outside the moved subtree, then its root, then everything.
  have houtside : ∀ x, ¬ d.Below child x →
      Acc (fun p c => (d.attach parent index child).IsChild c p) x := by
    intro x
    induction x using h.acyclic.induction with
    | _ x ih =>
      intro hx
      refine ⟨x, ?_⟩
      intro p hp
      rcases hstep x p hp with ⟨rfl, -⟩ | ⟨-, hp⟩
      · exact absurd (Below.refl d x) hx
      · exact ih p hp fun hcp => hx (hcp.trans (below_of_parent? hp))
  have hroot : Acc (fun p c => (d.attach parent index child).IsChild c p) child := by
    refine ⟨child, ?_⟩
    intro p hp
    rcases hstep child p hp with ⟨-, rfl⟩ | ⟨hself, -⟩
    · exact houtside p hbelow
    · exact absurd rfl hself
  refine ⟨fun x => ?_⟩
  induction x using h.acyclic.induction with
  | _ x ih =>
    refine ⟨x, ?_⟩
    intro p hp
    rcases hstep x p hp with ⟨rfl, rfl⟩ | ⟨-, hp⟩
    · exact hroot.inv (by rw [IsChild, parent?_attach hne hchild, if_pos rfl])
    · exact ih p hp

/-- A document is well-formed after a node without parent is linked under one that is not below it.
-/
theorem WellFormed.attach (h : d.WellFormed) {parent child : NodeId}
    (hparent : d.isLive parent = true) (hchild : d.isLive child = true)
    (hroot : d.parent? child = none) (hbelow : ¬ d.Below child parent) (index : Nat) :
    (d.attach parent index child).WellFormed := by
  have hne : parent ≠ child := by
    rintro rfl
    exact hbelow (Below.refl d parent)
  have hnew : ∀ p, child ∉ d.children p := by
    intro p hmem
    rw [h.parent_of_mem hmem] at hroot
    cases hroot
  refine
    { toFreeExact := h.toFreeExact.attach parent index child
      parent_of_mem := ?_
      mem_of_parent := ?_
      children_nodup := ?_
      acyclic := acyclic_attach h hne hchild hbelow index }
  · intro p c hc
    rw [parent?_attach hne hchild]
    rcases (mem_children_attach hne hparent index).mp hc with ⟨rfl, rfl⟩ | hold
    · rw [if_pos rfl]
    · have hcc : c ≠ child := by
        rintro rfl
        exact hnew p hold
      rw [if_neg hcc]
      exact h.parent_of_mem hold
  · intro p c hc
    rw [parent?_attach hne hchild] at hc
    rw [mem_children_attach hne hparent]
    split at hc
    · next heq => exact Or.inl ⟨(Option.some.inj hc).symm, heq⟩
    · exact Or.inr (h.mem_of_parent hc)
  · intro p
    rw [children_attach hne hparent]
    split
    · rw [(List.perm_insertIdx child _ (Nat.min_le_right _ _)).nodup_iff]
      exact List.nodup_cons.mpr ⟨hnew p, h.children_nodup p⟩
    · exact h.children_nodup p

/-! ## Moving a node -/

/-- The entries after a node is moved under another. -/
theorem entry?_insertChild (h : d.WellFormed) {parent child : NodeId} (hne : parent ≠ child)
    (index : Nat) (x : NodeId) :
    entry? (d.insertChild parent index child) x = (d.entry? x).map fun e =>
      let kept := e.children.filter fun c => c != child
      { e with
        parent := if x = child then some parent else e.parent
        children := if x = parent then kept.insertIdx (min index kept.length) child else kept } := by
  rw [insertChild_eq_attach, entry?_attach hne, entry?_detach h, Option.map_map]
  congr 1
  funext e
  by_cases hx : x = child <;> simp [hx]

/-- To move a node leaves what nodes are. -/
theorem data?_insertChild (h : d.WellFormed) {parent child : NodeId} (hne : parent ≠ child)
    (index : Nat) (x : NodeId) : (d.insertChild parent index child).data? x = d.data? x := by
  rw [data?_eq, data?_eq, entry?_insertChild h hne, Option.map_map]
  rfl

/-- To move a node leaves all nodes live. -/
theorem isLive_insertChild (h : d.WellFormed) {parent child : NodeId} (hne : parent ≠ child)
    (index : Nat) (x : NodeId) : (d.insertChild parent index child).isLive x = d.isLive x := by
  rw [isLive_eq_data?, isLive_eq_data?, data?_insertChild h hne]

/-- Only the node that is moved has another parent than before. -/
theorem parent?_insertChild (h : d.WellFormed) {parent child : NodeId} (hne : parent ≠ child)
    (hchild : d.isLive child = true) (index : Nat) (x : NodeId) :
    (d.insertChild parent index child).parent? x =
      if x = child then some parent else d.parent? x := by
  rw [parent?_eq, parent?_eq, entry?_insertChild h hne]
  by_cases hx : x = child
  · subst hx
    obtain ⟨e, he⟩ := isLive_iff.mp hchild
    simp [he]
  · cases d.entry? x <;> simp [hx]

/-- A moved node is where it was put and nowhere else. -/
theorem children_insertChild (h : d.WellFormed) {parent child : NodeId} (hne : parent ≠ child)
    (hparent : d.isLive parent = true) (index : Nat) (x : NodeId) :
    (d.insertChild parent index child).children x =
      let kept := (d.children x).filter fun c => c != child
      if x = parent then kept.insertIdx (min index kept.length) child else kept := by
  rw [children_eq, children_eq, entry?_insertChild h hne]
  by_cases hx : x = parent
  · subst hx
    obtain ⟨e, he⟩ := isLive_iff.mp hparent
    simp [he]
  · cases d.entry? x <;> simp [hx]

/-- Moving a node without parent changes nothing but itself and its new parent. -/
theorem entry?_insertChild_of_root (h : d.WellFormed) {parent child x : NodeId}
    (hne : parent ≠ child) (hroot : d.parent? child = none) (index : Nat) (hx : x ≠ parent)
    (hxc : x ≠ child) : entry? (d.insertChild parent index child) x = d.entry? x := by
  rw [Dom.entry?_insertChild h hne]
  cases he : d.entry? x with
  | none => rfl
  | some e =>
    have hfilter : e.children.filter (fun c => c != child) = e.children := by
      refine List.filter_eq_self.mpr ?_
      rintro c hc
      have hmem : c ∈ d.children x := by simpa [children_eq, he] using hc
      have hcc : c ≠ child := by
        rintro rfl
        rw [h.parent_of_mem hmem] at hroot
        cases hroot
      simpa using hcc
    simp [hx, hxc, hfilter]

/-- A node may be moved under any live node outside its subtree. -/
theorem WellFormed.insertChild (h : d.WellFormed) {parent child : NodeId}
    (hparent : d.isLive parent = true) (hchild : d.isLive child = true)
    (hbelow : ¬ d.Below child parent) (index : Nat) :
    (d.insertChild parent index child).WellFormed := by
  rw [insertChild_eq_attach]
  refine (h.detach child).attach ?_ ?_ ?_ ?_ index
  · rw [isLive_detach h, hparent]
  · rw [isLive_detach h, hchild]
  · rw [parent?_detach h, if_pos rfl]
  · exact fun hbelow' => hbelow (below_of_below_detach h hbelow')

end Dom
end LiveMarkup
