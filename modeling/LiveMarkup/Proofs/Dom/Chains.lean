import LiveMarkup.Proofs.Dom.Trees

/-!
# Chains of labels

Patches find an element by its label, that is its tag and its key, among the children of its
parent.  The labels from a target down to an element form the chain of the element.

Main definitions:

- `Label`, `Dom.label?`: the labels of elements.
- `LiveNode.chainsAll`: the chains of the elements in a forest, in document order.
- `Dom.chains`: the chains of the live elements below a target, each with its handle.
- `Dom.Trail`: the way from a target down to an element, told by labels.

Main results:

- `Dom.map_fst_chains`: live elements have the chains of the forest that they make up.
- `Dom.chainsTo_eq_of_le`: the bound of the walk down makes no difference.
- `Dom.mem_chains_iff`: the chains of the elements are those of their trails.
- `Dom.Trail.unique`: a node has one chain only.
-/

namespace LiveMarkup

/-- A tag with a key. -/
structure Label where
  tag : String
  key : Option String
  deriving DecidableEq, Repr

/-- The label of an element. -/
def LiveData.label? : LiveData → Option Label
  | .element e => some ⟨e.tag, e.key⟩
  | _ => none

/-! ## Chains in a forest -/

namespace LiveNode

mutual

/-- The chains of the elements among a node and everything below it, in document order, given the
labels above. -/
def chains (above : List Label) : LiveNode → List (List Label)
  | .element tag key _ children =>
    (above ++ [⟨tag, key⟩]) :: chainsAll (above ++ [⟨tag, key⟩]) children
  | .text _ => []
  | .comment _ => []

/-- The chains of the elements among nodes and below them, in document order, given the labels
above. -/
def chainsAll (above : List Label) : List LiveNode → List (List Label)
  | [] => []
  | n :: rest => chains above n ++ chainsAll above rest

end

/-- The chains at and below a node with some data. -/
theorem chains_toTree (above : List Label) (data : LiveData) (children : List LiveNode) :
    chains above (data.toTree children) =
      match data.label? with
      | some label => (above ++ [label]) :: chainsAll (above ++ [label]) children
      | none => [] := by
  cases data <;> rfl

theorem chainsAll_filterMap {α : Type} (above : List Label) (f : α → Option LiveNode)
    (cs : List α) :
    chainsAll above (cs.filterMap f) = cs.flatMap fun c => (f c).elim [] (chains above) := by
  induction cs with
  | nil => rfl
  | cons c rest ih =>
    rw [List.filterMap_cons, List.flatMap_cons, ← ih]
    cases f c with
    | none => rfl
    | some n => rfl

end LiveNode

namespace Dom

variable {d d' : Dom} {target : NodeId}

/-! ## Chains in the live tree -/

/-- The label of a live element. -/
def label? (d : Dom) (id : NodeId) : Option Label :=
  (d.data? id).bind LiveData.label?

/-- The elements below a node in document order, down to a depth, each with its chain, given the
labels above. -/
def chainsTo (d : Dom) : Nat → List Label → NodeId → List (List Label × NodeId)
  | 0, _, _ => []
  | depth + 1, above, id =>
    (d.children id).flatMap fun c =>
      match d.label? c with
      | some label => (above ++ [label], c) :: d.chainsTo depth (above ++ [label]) c
      | none => []

/-- The elements below a target in document order, each with its chain. -/
def chains (d : Dom) (target : NodeId) : List (List Label × NodeId) :=
  d.chainsTo (d.slots.size + 1) [] target

theorem map_fst_chainsTo (d : Dom) (depth : Nat) (above : List Label) (id : NodeId) :
    (d.chainsTo depth above id).map (·.1) =
      LiveNode.chainsAll above ((d.children id).filterMap (d.treeTo? depth)) := by
  induction depth generalizing above id with
  | zero =>
    have hnone : (d.children id).filterMap (d.treeTo? 0) = [] :=
      List.filterMap_eq_nil_iff.mpr fun _ _ => rfl
    rw [hnone]
    rfl
  | succ depth ih =>
    rw [chainsTo, List.map_flatMap, LiveNode.chainsAll_filterMap]
    refine List.flatMap_congr ?_
    intro c _
    rw [treeTo?_succ]
    cases hc : d.entry? c with
    | none =>
      have hlabel : d.label? c = none := by simp [label?, data?_eq, hc]
      rw [hlabel]
      rfl
    | some e =>
      have hlabel : d.label? c = e.data.label? := by simp [label?, data?_eq, hc]
      have hchildren : d.children c = e.children := by simp [children_eq, hc]
      simp only [hlabel, Option.map_some, Option.elim_some, LiveNode.chains_toTree, ← hchildren]
      cases e.data.label? with
      | none => rfl
      | some label => rw [List.map_cons, ih]

/-- Live elements have the chains of the forest that they make up. -/
theorem map_fst_chains (d : Dom) (target : NodeId) :
    (d.chains target).map (·.1) = LiveNode.chainsAll [] (d.forest target) :=
  map_fst_chainsTo d _ [] target

/-! ## The walk down -/

/-- A bound that reaches the leaves makes no difference. -/
theorem chainsTo_eq_of_le (h : d.WellFormed) :
    ∀ (m n : Nat) (above : List Label) (id : NodeId), d.slots.size ≤ m + h.rank id →
      d.slots.size ≤ n + h.rank id → d.chainsTo m above id = d.chainsTo n above id := by
  intro m n above id hm hn
  by_cases hid : d.isLive id = true
  · have hlevel : ∀ (m n : Nat) (id : NodeId), d.isLive id = true →
        (∀ c ∈ d.children id, (fun above => d.chainsTo m above c) = fun above =>
          d.chainsTo n above c) →
        (fun above => d.chainsTo (m + 1) above id) = fun above => d.chainsTo (n + 1) above id := by
      intro m n id _ hbelow
      funext above
      rw [chainsTo, chainsTo]
      refine List.flatMap_congr fun c hc => ?_
      cases d.label? c with
      | none => rfl
      | some label => exact congrArg (List.cons _) (congrFun (hbelow c hc) _)
    exact congrFun (h.eq_of_bounds hlevel m n hid hm hn) above
  · have hchildren : d.children id = [] :=
      List.eq_nil_iff_forall_not_mem.mpr fun _ hc => hid (isLive_of_mem_children hc)
    cases m <;> cases n <;> simp [chainsTo, hchildren]

/-! ## Trails -/

/-- Children lead from the target down to a node, and the labels on the way make up its chain. -/
inductive Trail (d : Dom) (target : NodeId) : List Label → NodeId → Prop where
  | target : Trail d target [] target
  | child {chain : List Label} {parent id : NodeId} {label : Label}
      (habove : Trail d target chain parent) (hparent : d.parent? id = some parent)
      (hlabel : d.label? id = some label) : Trail d target (chain ++ [label]) id

namespace Trail

variable {chain : List Label} {id : NodeId}

/-- What a trail leads to lies below the target. -/
theorem below_target (h : d.Trail target chain id) : d.Below target id := by
  induction h with
  | target => exact Below.refl d target
  | child _ hparent _ ih => exact ih.trans (below_of_parent? hparent)

/-- Only the target has no labels on its trail. -/
theorem eq_target (h : d.Trail target chain id) (hnil : chain = []) : id = target := by
  cases h with
  | target => rfl
  | child _ _ _ => exact absurd hnil (by simp)

/-- No trail leads back to the target. -/
theorem eq_nil (h : d.Trail target chain target) (hwf : d.WellFormed) : chain = [] := by
  cases h with
  | target => rfl
  | child habove hparent _ => exact absurd habove.below_target (hwf.not_below_parent hparent)

/-- A node has one chain only. -/
theorem unique (h : d.Trail target chain id) (hwf : d.WellFormed) {chain' : List Label}
    (h' : d.Trail target chain' id) : chain = chain' := by
  induction h generalizing chain' with
  | target => exact (h'.eq_nil hwf).symm
  | @child chain parent id label habove hparent hlabel ih =>
    cases h' with
    | target => exact absurd habove.below_target (hwf.not_below_parent hparent)
    | @child chain' parent' _ label' habove' hparent' hlabel' =>
      rw [hparent, Option.some.injEq] at hparent'
      rw [hlabel, Option.some.injEq] at hlabel'
      rw [ih (hparent' ▸ habove'), hlabel']

/-- A trail is as long as its node lies deep below the target. -/
theorem rank_eq (h : d.Trail target chain id) (hwf : d.WellFormed) :
    hwf.rank id = hwf.rank target + chain.length := by
  induction h with
  | target => rfl
  | child _ hparent _ ih =>
    rw [hwf.rank_child hparent, ih, List.length_append, List.length_singleton]
    rfl

end Trail

/-! ## Chains and trails -/

theorem mem_chainsTo_succ {depth : Nat} {above chain : List Label} {id x : NodeId} :
    (chain, x) ∈ d.chainsTo (depth + 1) above id ↔
      ∃ c ∈ d.children id, ∃ label, d.label? c = some label ∧
        ((chain, x) = (above ++ [label], c) ∨
          (chain, x) ∈ d.chainsTo depth (above ++ [label]) c) := by
  rw [chainsTo, List.mem_flatMap]
  refine exists_congr fun c => and_congr_right fun _ => ?_
  cases d.label? c with
  | none => simp
  | some label => simp

/-- The chains below a node go on from the labels above. -/
theorem isPrefix_of_mem_chainsTo {chain : List Label} {x : NodeId} :
    ∀ (depth : Nat) {above : List Label} {id : NodeId}, (chain, x) ∈ d.chainsTo depth above id →
      above <+: chain
  | 0, _, _, hmem => absurd hmem List.not_mem_nil
  | depth + 1, above, id, hmem => by
    obtain ⟨c, -, label, -, heq | hmem⟩ := mem_chainsTo_succ.mp hmem
    · cases heq
      exact List.prefix_append above [label]
    · exact (List.prefix_append above [label]).trans (isPrefix_of_mem_chainsTo depth hmem)

/-- The walk down follows trails. -/
theorem trail_of_mem_chainsTo (h : d.WellFormed) {chain : List Label} {x : NodeId} :
    ∀ (depth : Nat) {above : List Label} {id : NodeId}, d.Trail target above id →
      (chain, x) ∈ d.chainsTo depth above id → d.Trail target chain x ∧ chain ≠ []
  | 0, _, _, _, hmem => absurd hmem List.not_mem_nil
  | depth + 1, above, id, habove, hmem => by
    obtain ⟨c, hc, label, hlabel, heq | hmem⟩ := mem_chainsTo_succ.mp hmem
    · cases heq
      exact ⟨.child habove (h.parent_of_mem hc) hlabel, by simp⟩
    · exact trail_of_mem_chainsTo h depth (.child habove (h.parent_of_mem hc) hlabel) hmem

/-- The walk down goes on from every node that it meets before its bound. -/
theorem mem_chainsTo_child {chain : List Label} {x c : NodeId} {label : Label}
    (hc : c ∈ d.children x) (hlabel : d.label? c = some label) :
    ∀ (depth : Nat) {above : List Label} {id : NodeId}, (chain, x) ∈ d.chainsTo depth above id →
      chain.length < above.length + depth → (chain ++ [label], c) ∈ d.chainsTo depth above id
  | 0, _, _, hmem, _ => absurd hmem List.not_mem_nil
  | depth + 1, above, id, hmem, hlt => by
    obtain ⟨b, hb, first, hfirst, heq | hmem⟩ := mem_chainsTo_succ.mp hmem
    · cases heq
      rw [List.length_append, List.length_singleton] at hlt
      obtain ⟨depth, rfl⟩ : ∃ k, depth = k + 1 := ⟨depth - 1, by omega⟩
      have hnext : (above ++ [first] ++ [label], c) ∈ d.chainsTo (depth + 1) (above ++ [first]) x :=
        mem_chainsTo_succ.mpr ⟨c, hc, label, hlabel, Or.inl rfl⟩
      exact mem_chainsTo_succ.mpr ⟨x, hb, first, hfirst, Or.inr hnext⟩
    · refine mem_chainsTo_succ.mpr ⟨b, hb, first, hfirst, Or.inr ?_⟩
      refine mem_chainsTo_child hc hlabel depth hmem ?_
      rw [List.length_append, List.length_singleton]
      omega

/-- The chains of the elements below a target are those of their trails. -/
theorem mem_chains_iff (h : d.WellFormed) {chain : List Label} {x : NodeId} :
    (chain, x) ∈ d.chains target ↔ d.Trail target chain x ∧ chain ≠ [] := by
  constructor
  · exact trail_of_mem_chainsTo h _ .target
  · rintro ⟨htrail, hne⟩
    induction htrail with
    | target => exact absurd rfl hne
    | @child chain parent x label habove hparent hlabel ih =>
      have hc := h.mem_of_parent hparent
      cases chain with
      | nil =>
        rw [habove.eq_target rfl] at hc
        exact mem_chainsTo_succ.mpr ⟨x, hc, label, hlabel, Or.inl rfl⟩
      | cons first rest =>
        refine mem_chainsTo_child hc hlabel _ (ih (List.cons_ne_nil _ _)) ?_
        have hrank := habove.rank_eq h
        have hlt := h.rank_lt (h.isLive_parent hparent)
        rw [List.length_nil]
        omega

end Dom
end LiveMarkup
