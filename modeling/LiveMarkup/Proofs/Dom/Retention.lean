import LiveMarkup.Proofs.Dom.Heirs

/-!
# What a patch retains

Given some keys, an element is anchored below a target if it and all elements above it up to the
target have such keys.  A patch retains the anchored elements of a tree if each of them keeps its
label and, in their order, its children with such keys.

Main definitions:

- `Label.isAmong`, `Dom.isAmong`, `Dom.keyedChildren`: labels, nodes and children with given keys.
- `Dom.Anchored`: the nodes that are reached from a target by such children.
- `Dom.Retains`: what a patch retains.
- `Dom.pending`: the children with given keys that a frame has not reached yet.
- `Dom.isAnchoredChain`: chains of such keys.

Main results:

- `Dom.Retains.placed`, `Dom.Retains.cut`: a tree is still retained when a node is placed, and when
  children are cut off.
- `Dom.Retains.filter_chains`: retained elements keep their chains and their order.
-/

namespace LiveMarkup

/-- Whether a label has one of some keys. -/
def Label.isAmong (keys : List String) (label : Label) : Bool :=
  label.key.any fun key => keys.contains key

namespace Dom

variable {d₀ d d' : Dom} {keys : List String} {target : NodeId}

/-- Whether a live node is an element with one of some keys. -/
def isAmong (d : Dom) (keys : List String) (id : NodeId) : Bool :=
  (d.label? id).any (Label.isAmong keys)

/-- The children of a node with one of some keys. -/
def keyedChildren (d : Dom) (keys : List String) (id : NodeId) : List NodeId :=
  (d.children id).filter (d.isAmong keys)

/-- The children from the cursor of a frame on with one of some keys. -/
def pending (d : Dom) (keys : List String) (frame : Cursor) : List NodeId :=
  ((d.children frame.parent).drop frame.next).filter (d.isAmong keys)

/-- A node is the target, or it and all nodes between are elements with given keys. -/
inductive Anchored (d : Dom) (keys : List String) (target : NodeId) : NodeId → Prop where
  | target : Anchored d keys target target
  | child {x c : NodeId} (habove : Anchored d keys target x) (hmem : c ∈ d.keyedChildren keys x) :
      Anchored d keys target c

/-- The anchored nodes of `d₀` are live in `d`, with the labels and the keyed children that they had
there. -/
structure Retains (d₀ d : Dom) (keys : List String) (target : NodeId) : Prop where
  isLive : ∀ x, d₀.Anchored keys target x → d.isLive x = true
  label?_eq : ∀ x, d₀.Anchored keys target x → d.label? x = d₀.label? x
  children_eq : ∀ x, d₀.Anchored keys target x → d.keyedChildren keys x = d₀.keyedChildren keys x

theorem isAmong_congr {x : NodeId} (h : d'.label? x = d.label? x) :
    d'.isAmong keys x = d.isAmong keys x := by
  rw [isAmong, isAmong, h]

theorem keyedChildren_eq_append (d : Dom) (keys : List String) (frame : Cursor) :
    d.keyedChildren keys frame.parent =
      ((d.children frame.parent).take frame.next).filter (d.isAmong keys) ++
        d.pending keys frame := by
  rw [keyedChildren, pending, ← List.filter_append, List.take_append_drop]

theorem pending_start (d : Dom) (keys : List String) (id : NodeId) :
    d.pending keys { parent := id } = d.keyedChildren keys id :=
  rfl

theorem Retains.refl (h : d.WellFormed) (hlive : d.isLive target = true) :
    d.Retains d keys target where
  isLive := by
    intro x hx
    cases hx with
    | target => exact hlive
    | child _ hmem => exact h.isLive_child (List.mem_of_mem_filter hmem)
  label?_eq := fun _ _ => rfl
  children_eq := fun _ _ => rfl

/-- An anchored node below the target has a key among the given ones, and an anchored parent. -/
theorem Retains.anchored_parent (hkeep : d₀.Retains d keys target) (h : d.WellFormed)
    {x p : NodeId} (hx : d₀.Anchored keys target x) (hne : x ≠ target)
    (hparent : d.parent? x = some p) : d₀.Anchored keys target p ∧ d.isAmong keys x = true := by
  cases hx with
  | target => exact absurd rfl hne
  | @child above _ habove hmem =>
    rw [← hkeep.children_eq above habove] at hmem
    obtain ⟨hchild, hkey⟩ := List.mem_filter.mp hmem
    have hp := h.parent_of_mem hchild
    rw [hparent] at hp
    cases hp
    exact ⟨habove, hkey⟩

/-! ## Placing a node -/

section Placing

variable {frame g : Cursor} {id : NodeId} {data : LiveData}

/-- Of children that are live already, those with given keys are the same. -/
theorem filter_isAmong_congr (hlabels : ∀ x, d.isLive x = true → d'.label? x = d.label? x)
    {children : List NodeId} (hlive : ∀ c ∈ children, d.isLive c = true) :
    children.filter (d'.isAmong keys) = children.filter (d.isAmong keys) :=
  filter_label?_congr hlabels hlive

/-- After a node is placed, it is pending no more. -/
theorem Placed.pending_next (hplaced : d.Placed d' frame id data) (h : d.WellFormed)
    (hlabels : ∀ x, d.isLive x = true → d'.label? x = d.label? x)
    (hnext : frame.next ≤ (d.children frame.parent).length) :
    d'.pending keys { frame with next := frame.next + 1 } = (d.pending keys frame).erase id :=
  hplaced.waiting_next h hlabels hnext

theorem isAmong_of_mem_pending (h : d.WellFormed)
    (hlabels : ∀ x, d.isLive x = true → d'.label? x = d.label? x) {c : NodeId}
    (hc : c ∈ d.pending keys frame) : d'.isAmong keys c = true := by
  obtain ⟨hdrop, hkey⟩ := List.mem_filter.mp hc
  rw [isAmong_congr (hlabels c (h.isLive_child (List.mem_of_mem_drop hdrop))), hkey]

/-- A node without one of the keys was not pending. -/
theorem erase_pending (h : d.WellFormed)
    (hlabels : ∀ x, d.isLive x = true → d'.label? x = d.label? x)
    (hother : d'.isAmong keys id = false) :
    (d.pending keys frame).erase id = d.pending keys frame :=
  erase_waiting h hlabels hother

/-- The keyed children of a node are the same after a node is placed there, if that is the next one
pending or has no such key. -/
theorem Placed.keyedChildren_parent (hplaced : d.Placed d' frame id data) (h : d.WellFormed)
    (hlabels : ∀ x, d.isLive x = true → d'.label? x = d.label? x)
    (hid : (∃ rest, d.pending keys frame = id :: rest) ∨ d'.isAmong keys id = false) :
    d'.keyedChildren keys frame.parent = d.keyedChildren keys frame.parent := by
  have hsame : ∀ children ⊆ d.children frame.parent,
      children.filter (d'.isAmong keys) = children.filter (d.isAmong keys) := fun _ hsub =>
    filter_isAmong_congr hlabels fun _ hc => h.isLive_child (hsub hc)
  rw [keyedChildren, hplaced.children_parent, List.filter_append, List.filter_cons,
    hsame _ (List.take_subset _ _),
    hsame _ (List.Subset.trans List.erase_subset (List.drop_subset _ _)),
    ← List.erase_filter, keyedChildren_eq_append]
  congr 1
  show (if d'.isAmong keys id = true then id :: (d.pending keys frame).erase id
    else (d.pending keys frame).erase id) = d.pending keys frame
  rcases hid with ⟨rest, hrest⟩ | hother
  · have hmem : id ∈ d.pending keys frame := by simp [hrest]
    rw [if_pos (isAmong_of_mem_pending h hlabels hmem), hrest, List.erase_cons_head]
  · rw [if_neg (by simp [hother]), erase_pending h hlabels hother]

/-- A frame around another is not concerned when a node is placed. -/
theorem Placed.pending_outer (hplaced : d.Placed d' frame id data) (h : d.WellFormed)
    (hlabels : ∀ x, d.isLive x = true → d'.label? x = d.label? x)
    (hinside : ∃ c ∈ (d.children g.parent).take g.next, d.Below c frame.parent) :
    d'.pending keys g = d.pending keys g :=
  hplaced.waiting_outer h hlabels hinside

/-- A tree is still retained after a node is placed.  In an anchored node it must be the next one
pending, or have no key among the given ones. -/
theorem Retains.placed (hkeep : d₀.Retains d keys target) (h : d.WellFormed)
    (hplaced : d.Placed d' frame id data) (hfills : d.Fills d')
    (hlabels : ∀ x, d.isLive x = true → d'.label? x = d.label? x)
    (hid : d₀.Anchored keys target frame.parent →
      (∃ rest, d.pending keys frame = id :: rest) ∨ d'.isAmong keys id = false) :
    d₀.Retains d' keys target where
  isLive := fun x hx => hfills.isLive (hkeep.isLive x hx)
  label?_eq := fun x hx => (hlabels x (hkeep.isLive x hx)).trans (hkeep.label?_eq x hx)
  children_eq := by
    intro x hx
    rw [← hkeep.children_eq x hx]
    by_cases hparent : x = frame.parent
    · subst hparent
      exact hplaced.keyedChildren_parent h hlabels (hid hx)
    · rw [keyedChildren, hplaced.children_other x hparent]
      exact filter_isAmong_congr hlabels fun c hc => h.isLive_child hc

end Placing

/-! ## Cutting off children -/

section Cutting

variable {frame g : Cursor}

/-- What is anchored is not cut off, if nothing is pending. -/
theorem Retains.not_inCut (hkeep : d₀.Retains d keys target) (h : d.WellFormed)
    (hbelow : d.Below target frame.parent)
    (hdone : d₀.Anchored keys target frame.parent → d.pending keys frame = []) {x : NodeId}
    (hx : d₀.Anchored keys target x) : ¬ d.InCut frame.parent frame.next x := by
  induction hx with
  | target =>
    rintro ⟨s, hs, hcut⟩
    exact h.not_below_parent (h.parent_of_mem (List.mem_of_mem_drop hs)) (hcut.trans hbelow)
  | @child above c habove hmem ih =>
    rw [← hkeep.children_eq above habove] at hmem
    obtain ⟨hchild, hkey⟩ := List.mem_filter.mp hmem
    have hparent := h.parent_of_mem hchild
    rintro ⟨s, hs, hcut⟩
    rcases hcut.eq_or_parent with rfl | ⟨p, hp, habove'⟩
    · -- The node itself would be pending.
      have heq := hparent.symm.trans (h.parent_of_mem (List.mem_of_mem_drop hs))
      cases heq
      have hpending : c ∈ d.pending keys frame := List.mem_filter.mpr ⟨hs, hkey⟩
      rw [hdone habove] at hpending
      cases hpending
    · rw [hparent] at hp
      cases hp
      exact ih ⟨s, hs, habove'⟩

/-- A tree is still retained after the remaining children of a node are cut off.  In an anchored
node none of them may be pending. -/
theorem Retains.cut (hkeep : d₀.Retains d keys target) (h : d.WellFormed)
    (hbelow : d.Below target frame.parent)
    (hdone : d₀.Anchored keys target frame.parent → d.pending keys frame = []) :
    d₀.Retains (d.cut frame.parent frame.next) keys target := by
  have hstay : ∀ x, d₀.Anchored keys target x → ¬ d.InCut frame.parent frame.next x :=
    fun _ hx => hkeep.not_inCut h hbelow hdone hx
  have hlabel : ∀ x, ¬ d.InCut frame.parent frame.next x →
      (d.cut frame.parent frame.next).label? x = d.label? x := fun x hx =>
    label?_congr (data?_cut h hx)
  refine ⟨?_, ?_, ?_⟩
  · intro x hx
    rw [isLive_cut h (hstay x hx), hkeep.isLive x hx]
  · intro x hx
    rw [hlabel x (hstay x hx), hkeep.label?_eq x hx]
  · intro x hx
    rw [← hkeep.children_eq x hx, keyedChildren, children_cut h (hstay x hx)]
    have hfilter : ∀ children : List NodeId,
        (∀ c ∈ children, ¬ d.InCut frame.parent frame.next c) →
          children.filter ((d.cut frame.parent frame.next).isAmong keys) =
            children.filter (d.isAmong keys) := fun children hc =>
      List.filter_congr fun c hmem => isAmong_congr (hlabel c (hc c hmem))
    split
    · next heq =>
      subst heq
      rw [keyedChildren_eq_append d keys frame, hdone hx, List.append_nil]
      exact hfilter _ fun c hc => not_inCut_of_mem_take h hc (Below.refl d c)
    · next hne =>
      exact hfilter _ fun c hc => not_inCut_child h (hstay x hx) hne (h.parent_of_mem hc)

/-- A frame around another is not concerned when children are cut off there. -/
theorem pending_cut_outer (h : d.WellFormed)
    (hinside : ∃ c ∈ (d.children g.parent).take g.next, d.Below c frame.parent) :
    (d.cut frame.parent frame.next).pending keys g = d.pending keys g :=
  waiting_cut_outer h hinside

end Cutting

/-! ## Chains -/

/-- Whether all labels of a chain have keys among some. -/
def isAnchoredChain (keys : List String) (entry : List Label × NodeId) : Bool :=
  entry.1.all (Label.isAmong keys)

/-- What is mapped to nothing may be left out before. -/
theorem flatMap_filter {α β : Type} {p : α → Bool} {f : α → List β} {l : List α}
    (h : ∀ a ∈ l, p a = false → f a = []) : (l.filter p).flatMap f = l.flatMap f := by
  induction l with
  | nil => rfl
  | cons a rest ih =>
    have hrest := ih fun b hb => h b (List.mem_cons_of_mem a hb)
    by_cases hp : p a = true
    · rw [List.filter_cons_of_pos hp, List.flatMap_cons, List.flatMap_cons, hrest]
    · rw [List.filter_cons_of_neg hp, hrest, List.flatMap_cons,
        h a List.mem_cons_self (Bool.not_eq_true _ ▸ hp), List.nil_append]

/-- To walk down along given keys is to follow the children with such keys. -/
theorem filter_chainsTo (d : Dom) (keys : List String) (depth : Nat) {above : List Label}
    (habove : above.all (Label.isAmong keys) = true) (id : NodeId) :
    (d.chainsTo (depth + 1) above id).filter (isAnchoredChain keys) =
      (d.keyedChildren keys id).flatMap fun c =>
        match d.label? c with
        | some label => (above ++ [label], c) ::
            (d.chainsTo depth (above ++ [label]) c).filter (isAnchoredChain keys)
        | none => [] := by
  rw [chainsTo, List.filter_flatMap, keyedChildren]
  refine (flatMap_filter ?_).symm.trans (List.flatMap_congr ?_)
  · -- No chain that goes through another child has given keys only.
    intro c _ hc
    rw [isAmong] at hc
    cases hlabel : d.label? c with
    | none => rfl
    | some label =>
      rw [hlabel, Option.any_some] at hc
      refine List.filter_eq_nil_iff.mpr ?_
      rintro ⟨chain, x⟩ hmem hkeys
      have hextends : above ++ [label] <+: chain := by
        rcases List.mem_cons.mp hmem with heq | hmem
        · cases heq
          exact List.prefix_rfl
        · exact isPrefix_of_mem_chainsTo depth hmem
      have hkey := List.all_eq_true.mp hkeys label (hextends.mem (by simp))
      rw [hc] at hkey
      cases hkey
  · intro c hc
    have hkey := (List.mem_filter.mp hc).2
    rw [isAmong] at hkey
    cases hlabel : d.label? c with
    | none => rfl
    | some label =>
      rw [hlabel, Option.any_some] at hkey
      simp [isAnchoredChain, habove, hkey]

/-- Retained elements keep their chains and their order. -/
theorem Retains.filter_chains (hkeep : d₀.Retains d keys target) (h₀ : d₀.WellFormed)
    (hsize : d₀.slots.size ≤ d.slots.size) :
    (d.chains target).filter (isAnchoredChain keys) =
      (d₀.chains target).filter (isAnchoredChain keys) := by
  have hwalk : ∀ (depth : Nat) (above : List Label) (id : NodeId), d₀.Anchored keys target id →
      above.all (Label.isAmong keys) = true →
      (d.chainsTo depth above id).filter (isAnchoredChain keys) =
        (d₀.chainsTo depth above id).filter (isAnchoredChain keys) := by
    intro depth
    induction depth with
    | zero => exact fun _ _ _ _ => rfl
    | succ depth ih =>
      intro above id hid habove
      rw [filter_chainsTo d keys depth habove, filter_chainsTo d₀ keys depth habove,
        hkeep.children_eq id hid]
      refine List.flatMap_congr fun c hc => ?_
      have hanchored : d₀.Anchored keys target c := .child hid hc
      rw [hkeep.label?_eq c hanchored]
      have hkey := (List.mem_filter.mp hc).2
      rw [isAmong] at hkey
      cases hlabel : d₀.label? c with
      | none => rfl
      | some label =>
        rw [hlabel] at hkey
        dsimp only
        rw [ih (above ++ [label]) c hanchored (by simp_all)]
  rw [chains, chains, hwalk _ [] target .target rfl,
    chainsTo_eq_of_le h₀ (d.slots.size + 1) (d₀.slots.size + 1) [] target (by omega) (by omega)]
end Dom
end LiveMarkup
