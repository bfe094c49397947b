import LiveMarkup.Proofs.Dom.Tags

/-!
# Only elements have children

Nodes are put under live elements only, and an element never becomes anything else.  So in every
reachable tree each parent is an element, and nothing lies below a text or a comment.

Main definitions:

- `Dom.ElementParents`: every parent is an element.

Main results:

- `Dom.elementParents_importUnder`: importing nodes keeps it.
- `Patcher.Follows.elementParents_replayAll`: so does a patch.
- `Dom.Reachable.elementParents`: it holds of reachable trees.
-/

namespace LiveMarkup
namespace Dom

variable {d d' : Dom}

/-- Every node that has a parent has an element for a parent. -/
def ElementParents (d : Dom) : Prop :=
  ∀ c p, d.parent? c = some p → d.isElement p = true

/-- Nodes that are not changed stay elements. -/
theorem keepsTags_of_unchanged (h : d.Unchanged d') : d.KeepsTags d' := fun x hx _ =>
  tag?_congr (by rw [data?_eq, data?_eq, h x hx])

/-- An element stays one while it lives. -/
theorem KeepsTags.isElement (h : d.KeepsTags d') {x : NodeId} (hx : d.isElement x = true)
    (hlive : d'.isLive x = true) : d'.isElement x = true := by
  rw [isElement_eq_tag?, h x (isLive_of_isElement hx) hlive, ← isElement_eq_tag?, hx]

/-- A change that keeps the tags may put nodes under elements. -/
theorem ElementParents.of_keepsTags (hd : d.ElementParents) (hkeeps : d.KeepsTags d')
    (h' : d'.WellFormed)
    (hparents : ∀ c p, d'.parent? c = some p → d.parent? c = some p ∨ d.isElement p = true) :
    d'.ElementParents := by
  intro c p hp
  have helement : d.isElement p = true := (hparents c p hp).elim (hd c p) id
  exact hkeeps.isElement helement (h'.isLive_parent hp)

/-! ## Operations other than patches -/

/-- Only elements are parents after a node is made, which has no children. -/
theorem elementParents_alloc (h : d.WellFormed) (hd : d.ElementParents) (data : LiveData)
    (hsize : (d.alloc data).2.slots.size ≤ maxSlots) : (d.alloc data).2.ElementParents := by
  refine hd.of_keepsTags (keepsTags_of_unchanged (unchanged_alloc h.toFreeExact hsize))
    (h.alloc data hsize) fun c p hp => .inl ?_
  rwa [parent?_alloc h.toFreeExact data hsize] at hp

/-- Only elements are parents after a node is moved under one. -/
theorem elementParents_insertChild (h : d.WellFormed) (hd : d.ElementParents)
    {parent child : NodeId} (hparent : d.isElement parent = true) (hchild : d.isLive child = true)
    (hbelow : ¬ d.Below child parent) (index : Nat) :
    (d.insertChild parent index child).ElementParents := by
  have hne : parent ≠ child := fun heq => hbelow (heq ▸ Below.refl d child)
  refine hd.of_keepsTags (keepsTags_of_label? fun x _ => label?_insertChild d _ _ _ x)
    (h.insertChild (isLive_of_isElement hparent) hchild hbelow index) fun c p hp => ?_
  rw [parent?_insertChild h hne hchild] at hp
  split at hp
  · cases hp
    exact .inr hparent
  · exact .inl hp

mutual

/-- Only elements are parents after a node is imported. -/
theorem elementParents_importNode {d : Dom} (h : d.WellFormed) (hd : d.ElementParents) :
    ∀ n : Node, (importNode d n).2.slots.size ≤ maxSlots → (importNode d n).2.ElementParents
  | .element tag attrs children, hsize => by
    simp only [importNode] at hsize ⊢
    generalize hdata : LiveData.element { tag, key := Key.authored? attrs, attrs } = data
      at hsize ⊢
    have halloc := (slots_size_le_importUnder _ (d.alloc data).1 children).trans hsize
    have helement : (d.alloc data).2.isElement (d.alloc data).1 = true := by
      rw [isElement, element?, data?_eq, entry?_alloc h.toFreeExact data halloc, if_pos rfl,
        ← hdata]
      rfl
    exact elementParents_importUnder (h.alloc data halloc)
      (elementParents_alloc h hd data halloc) helement children hsize
  | .text data, hsize => elementParents_alloc h hd (.text data) hsize
  | .comment data, hsize => elementParents_alloc h hd (.comment data) hsize
  | .directive _, _ => hd

/-- Importing nodes under an element puts them under elements. -/
theorem elementParents_importUnder {d : Dom} (h : d.WellFormed) (hd : d.ElementParents)
    {parent : NodeId} (hparent : d.isElement parent = true) :
    ∀ ns : List Node, (importUnder d parent ns).slots.size ≤ maxSlots →
      (importUnder d parent ns).ElementParents
  | [], _ => hd
  | n :: rest, hsize => by
    have hbound := (slots_size_importNode_le d parent n rest).trans hsize
    have hnode := elementParents_importNode h hd n hbound
    obtain ⟨h₁, hsame, hnew⟩ := importNode_spec h n hbound
    have hlive := isLive_of_isElement hparent
    have hparent₁ := (keepsTags_of_unchanged hsame).isElement hparent (hsame.isLive hlive)
    rw [importUnder] at hsize ⊢
    generalize importNode d n = imported at hnode h₁ hsame hnew hparent₁ hsize ⊢
    obtain ⟨_ | child, d₁⟩ := imported
    · exact elementParents_importUnder h₁ hnode hparent₁ rest hsize
    · have hroot := hnew child rfl
      have hput := hroot.grownUnder_insertLast h h₁ hsame hlive
      have hparent₂ : (d₁.insertLast parent child).isElement parent = true :=
        (keepsTags_of_label? fun x _ => label?_insertChild d₁ _ _ _ x).isElement hparent₁ hput.live
      exact elementParents_importUnder hput.wellFormed (elementParents_insertChild h₁
        hnode hparent₁ hroot.live (hroot.not_below h hsame hlive) _) hparent₂ rest hsize

end

/-! ## Patches -/

/-- Only elements are parents after a cut. -/
theorem elementParents_cut (h : d.WellFormed) (hd : d.ElementParents) (parent : NodeId)
    (next : Nat) : (d.cut parent next).ElementParents :=
  hd.of_keepsTags (h.keepsTags_cut parent next) (h.cut parent next) fun _ _ hp =>
    .inl (parent?_of_parent?_cut h hp).2

/-- Only elements are parents after a node is placed in an element. -/
theorem Placed.elementParents {frame : Cursor} {id : NodeId} {data : LiveData}
    (hplaced : d.Placed d' frame id data) (h : d.WellFormed) (hd : d.ElementParents)
    (hkeeps : d.KeepsTags d') (hframe : d.isElement frame.parent = true) : d'.ElementParents := by
  refine hd.of_keepsTags hkeeps hplaced.wellFormed fun c p hp => ?_
  by_cases hc : c = id
  · rw [hc, hplaced.parent?_self, Option.some.injEq] at hp
    exact .inr (hp ▸ hframe)
  · rw [hplaced.parent?_other h hc] at hp
    exact .inl hp

end Dom

namespace Patcher

open Dom

variable {target : NodeId}

/-- An instruction puts nodes under elements only. -/
theorem Follows.elementParents_replay {p : Patcher} {q : Option Progress}
    (hp : p.Follows target q) (hd : p.dom.ElementParents) (i : Instruction)
    (hsize : (i.replay p).dom.slots.size ≤ maxSlots) : (i.replay p).dom.ElementParents := by
  have hkeeps := hp.keepsTags_replay i hsize
  cases hp with
  | stopped hfault h =>
    rw [replay_of_fault hfault]
    exact hd
  | running hfault h hshows =>
    obtain ⟨frame, outer, hframes, hshows⟩ := exists_frame hshows
    cases i with
    | openElement tag key attrs =>
      obtain ⟨id, hplaced, -, -⟩ :=
        openElement_spec h hfault hframes hshows.isLive hshows.next_le hsize
      exact hplaced.elementParents h hd hkeeps hshows.isElement
    | closeElement tag =>
      show (closeElement tag p).dom.ElementParents
      unfold closeElement
      split
      · exact hd
      · split
        · split
          · exact elementParents_cut h hd _ _
          · exact hd
        · exact hd
    | text content =>
      obtain ⟨id, hplaced, -, -⟩ :=
        text_spec h hfault hframes hshows.isLive hshows.next_le hsize
      exact hplaced.elementParents h hd hkeeps hshows.isElement

/-- Only elements are parents after the instructions of a stream. -/
theorem Follows.elementParents_replayAll {p : Patcher} {q : Option Progress}
    (hp : p.Follows target q) (hd : p.dom.ElementParents) (stream : List Instruction)
    (hsize : (Instruction.replayAll stream p).dom.slots.size ≤ maxSlots) :
    (Instruction.replayAll stream p).dom.ElementParents := by
  induction stream generalizing p q with
  | nil => exact hd
  | cons i rest ih =>
    have hstep := (slots_size_le_replayAll (i.replay p) rest).trans hsize
    exact ih (hp.replay i hstep) (hp.elementParents_replay hd i hstep) hsize

/-- Only elements are parents after a patch. -/
theorem Follows.elementParents_finish {p : Patcher} {q : Option Progress}
    (hp : p.Follows target q) (hd : p.dom.ElementParents) : p.finish.2.ElementParents := by
  unfold Patcher.finish
  split
  · exact hd
  · exact elementParents_cut hp.wellFormed hd _ _
  · exact hd
  · exact hd

end Patcher

namespace Dom

variable {d : Dom}

/-- Only elements are parents after an operation. -/
theorem WellFormed.elementParents_perform (h : d.WellFormed) (hd : d.ElementParents)
    (op : Operation) (hsize : (d.perform op).slots.size ≤ maxSlots) :
    (d.perform op).ElementParents := by
  cases op with
  | createElement tag => exact elementParents_alloc h hd _ hsize
  | createText content => exact elementParents_alloc h hd _ hsize
  | setAttribute id name value =>
    have hkeeps : d.KeepsTags (d.perform (.setAttribute id name value)) :=
      h.keepsTags_perform (by rintro _ _ ⟨⟩) hsize
    have h' := h.perform (.setAttribute id name value) hsize
    refine hd.of_keepsTags hkeeps h' fun c p hp => .inl ?_
    simp only [Dom.perform, setAttribute] at hp
    split at hp
    · rwa [after, Dom.modifyElement, parent?_modify] at hp
      intro e
      split <;> rfl
    · exact hp
  | appendChild parent child =>
    simp only [Dom.perform] at hsize ⊢
    cases happend : d.appendChild parent child with
    | error e => exact hd
    | ok d' =>
      obtain ⟨hparent, hchild, hcontains, rfl⟩ := appendChild_eq_ok happend
      refine elementParents_insertChild h hd hparent hchild ?_ _
      rw [← h.contains_iff (isLive_of_isElement hparent), hcontains]
      exact Bool.false_ne_true
  | remove id =>
    have hkeeps : d.KeepsTags (d.perform (.remove id)) :=
      h.keepsTags_perform (by rintro _ _ ⟨⟩) hsize
    have h' := h.perform (.remove id) hsize
    refine hd.of_keepsTags hkeeps h' fun c p hp => .inl ?_
    simp only [Dom.perform, remove] at hp
    split at hp
    · rw [after, parent?_detach h] at hp
      split at hp
      · cases hp
      · exact hp
    · exact hp
  | parseInto parser parent markup =>
    simp only [Dom.perform] at hsize ⊢
    cases hparse : parseInto parser d parent markup with
    | error e => exact hd
    | ok result =>
      obtain ⟨added, d'⟩ := result
      obtain ⟨hparent, ns, rfl⟩ := parseInto_eq_ok hparse
      rw [hparse] at hsize
      exact elementParents_importUnder h hd hparent ns hsize
  | patch target stream =>
    simp only [Dom.perform] at hsize ⊢
    by_cases helement : d.isElement target = true
    · rw [patch_of_isElement d helement] at hsize ⊢
      rw [Patcher.slots_size_finish] at hsize
      have hstart := Patcher.follows_start h helement
      exact (hstart.replayAll stream hsize).elementParents_finish
        (hstart.elementParents_replayAll hd stream hsize)
    · rw [patch_of_not_isElement d helement]
      exact hd

/-- In a reachable tree, every parent is an element. -/
theorem Reachable.elementParents (h : d.Reachable) (hsize : d.slots.size ≤ maxSlots) :
    d.ElementParents := by
  induction h with
  | empty =>
    intro c p hp
    simp [parent?_eq, entry?] at hp
  | @perform d hd op ih =>
    have hbefore := (slots_size_le_perform d op).trans hsize
    exact (hd.wellFormed hbefore).elementParents_perform (ih hbefore) op hsize

end Dom
end LiveMarkup
