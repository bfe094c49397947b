import LiveMarkup.Proofs.Dom.Waiting

/-!
# A patch as an heir

While a patch runs, its tree inherits from the tree before it, as long as no key is opened twice.
So nodes and labels are where they were, and what the patch could have taken over it did take over.

Main definitions:

- `Patcher.Inheriting`: the invariant of a patch.

Main results:

- `Patcher.Inheriting.replay`, `Patcher.Inheriting.replayAll`: one instruction keeps the invariant,
  and so does a whole stream.
- `Dom.WellFormed.inherits_patch`: the tree that a patch leaves.
-/

namespace LiveMarkup
namespace Patcher

open Dom

variable {d₀ : Dom} {target : NodeId} {used : List String}

/-! ## Labels -/

/-- If an element is new, no child from the cursor on has its label. -/
theorem label?_ne_of_place {d : Dom} (h : d.WellFormed) {summary : PatchSummary} {frame : Cursor}
    {tag key : String} (hnew : d.isLive (place d summary frame tag key).1 = false) :
    ∀ s ∈ (d.children frame.parent).drop frame.next, d.label? s ≠ some ⟨tag, some key⟩ := by
  intro s hs hlabel
  have hmem : s ∈ d.waiting (· == ⟨tag, some key⟩) frame := mem_waiting.mpr ⟨hs, by simp [hlabel]⟩
  rw [place_fst] at hnew
  cases hwaiting : d.waiting (· == ⟨tag, some key⟩) frame with
  | nil => simp [hwaiting] at hmem
  | cons c rest =>
    rw [hwaiting, List.head?_cons, Option.getD_some] at hnew
    have hlive : d.isLive c = true := isLive_of_mem_waiting h (hwaiting ▸ List.mem_cons_self)
    rw [hnew] at hlive
    cases hlive

/-- The element that is entered is the one that was placed. -/
theorem eq_place_of_frames {p : Patcher} {frame : Cursor} {outer rest : List Cursor}
    {tag key : String} {attrs : List Attribute} {id : NodeId} (hfault : p.fault = none)
    (hframes : p.frames = frame :: outer)
    (hentered : (openElement tag key attrs p).frames = { parent := id } :: rest) :
    id = (place p.dom p.summary frame tag key).1 := by
  have hhead : (openElement tag key attrs p).frames.head? =
      some { parent := (place p.dom p.summary frame tag key).1 } := by
    simp [openElement, hfault, hframes]
  rw [hentered] at hhead
  simpa using hhead

/-- To put an element in place leaves the labels of the nodes that were there. -/
theorem label?_place {d : Dom} (h : d.FreeExact) {summary : PatchSummary} {frame : Cursor}
    {tag key : String} (hsize : (place d summary frame tag key).2.1.slots.size ≤ maxSlots)
    {x : NodeId} (hx : d.isLive x = true) :
    (place d summary frame tag key).2.1.label? x = d.label? x := by
  unfold place at hsize ⊢
  split
  · split
    · rfl
    · exact label?_insertChild d _ _ _ x
  · next hfind =>
    rw [hfind] at hsize
    rw [slots_size_insertChild] at hsize
    exact (label?_insertChild _ _ _ _ x).trans (label?_alloc h hsize hx)

/-- To open an element leaves the labels of the nodes that were there. -/
theorem label?_openElement {p : Patcher} (h : p.dom.FreeExact) {tag key : String}
    {attrs : List Attribute} (hsize : (openElement tag key attrs p).dom.slots.size ≤ maxSlots)
    {x : NodeId} (hx : p.dom.isLive x = true) :
    (openElement tag key attrs p).dom.label? x = p.dom.label? x := by
  unfold openElement at hsize ⊢
  split
  · rfl
  · next hfault =>
    rw [if_neg hfault] at hsize
    split
    · rfl
    · next frame outer hframes =>
      rw [hframes] at hsize
      rw [slots_size_modifyElement] at hsize
      refine (label?_modify _ _ ?_ x).trans (label?_place h hsize hx)
      intro e
      cases hdata : e.data <;> simp [hdata, LiveData.label?]

/-- To put a text in place leaves the labels of the nodes that were there. -/
theorem label?_text {p : Patcher} (h : p.dom.FreeExact) {content : String}
    (hsize : (text content p).dom.slots.size ≤ maxSlots) {x : NodeId}
    (hx : p.dom.isLive x = true) : (text content p).dom.label? x = p.dom.label? x := by
  unfold text at hsize ⊢
  split
  · rfl
  · next hfault =>
    rw [if_neg hfault] at hsize
    split
    · rfl
    · next frame outer hframes =>
      rw [hframes] at hsize
      dsimp only at hsize ⊢
      split
      · refine label?_modify _ _ ?_ x
        intro e
        cases hdata : e.data <;> simp [setText, hdata, LiveData.label?]
      · next hnone =>
        rw [hnone] at hsize
        rw [slots_size_insertChild] at hsize
        exact (label?_insertChild _ _ _ _ x).trans (label?_alloc h hsize hx)

/-! ## One instruction -/

/-- The tree of a patch that runs inherits from the tree before it, and its frames have their work
still to do. -/
structure Inheriting (p : Patcher) (d₀ : Dom) (used : List String) : Prop where
  inherits : d₀.Inherits p.dom
  awaits : ∀ frame ∈ p.frames, d₀.Awaits p.dom used frame

/-- To open an element under a key that was not used lets it inherit. -/
theorem inheriting_openElement (h₀ : d₀.WellFormed) {p : Patcher} {q : Progress}
    (hfault : p.fault = none) (h : p.dom.WellFormed)
    (hshows : p.dom.Shows target p.frames q.opened q.done) (hin : p.Inheriting d₀ used)
    {tag key : String} (hkey : key ∉ used) (attrs : List Attribute)
    (hsize : (openElement tag key attrs p).dom.slots.size ≤ maxSlots) :
    (openElement tag key attrs p).Inheriting d₀ (key :: used) := by
  obtain ⟨frame, outer, hframes, hshows⟩ := exists_frame hshows
  obtain ⟨id, hplaced, hframes', -⟩ :=
    openElement_spec h hfault hframes hshows.isLive hshows.next_le hsize
  have hid := eq_place_of_frames hfault hframes hframes'
  have hawaits : ∀ g ∈ frame :: outer, d₀.Awaits p.dom used g := hframes ▸ hin.awaits
  have hcont := hin.inherits.toContinues
  have hfills := fills_openElement tag key attrs p
  have hlabels : ∀ x, p.dom.isLive x = true →
      (openElement tag key attrs p).dom.label? x = p.dom.label? x := fun _ =>
    label?_openElement h.toFreeExact hsize
  refine ⟨hin.inherits.placed h hplaced hfills hlabels ?_, ?_⟩
  · rintro hnew c _ ⟨⟩ hc
    have haw := hawaits frame List.mem_cons_self
    exact haw.label?_ne hcont h hkey (label?_ne_of_place h (hid ▸ hnew)) hc
  · rw [hframes']
    refine awaits_placed hawaits h₀ h hcont hplaced hfills hlabels hshows
      (List.subset_cons_self key used) ?_
    rintro _ _ ⟨⟩
    exact List.mem_cons_self

/-- To put a text in place uses no key. -/
theorem inheriting_text (h₀ : d₀.WellFormed) {p : Patcher} {q : Progress}
    (hfault : p.fault = none) (h : p.dom.WellFormed)
    (hshows : p.dom.Shows target p.frames q.opened q.done) (hin : p.Inheriting d₀ used)
    (content : String) (hsize : (text content p).dom.slots.size ≤ maxSlots) :
    (text content p).Inheriting d₀ used := by
  obtain ⟨frame, outer, hframes, hshows⟩ := exists_frame hshows
  obtain ⟨id, hplaced, hframes', -⟩ :=
    text_spec h hfault hframes hshows.isLive hshows.next_le hsize
  have hawaits : ∀ g ∈ frame :: outer, d₀.Awaits p.dom used g := hframes ▸ hin.awaits
  have hfills := fills_text content p
  have hlabels : ∀ x, p.dom.isLive x = true →
      (text content p).dom.label? x = p.dom.label? x := fun _ =>
    label?_text h.toFreeExact hsize
  -- A text has no label.
  refine ⟨hin.inherits.placed h hplaced hfills hlabels ?_, ?_⟩
  · rintro _ c _ ⟨⟩
  · rw [hframes']
    have hall := awaits_placed hawaits h₀ h hin.inherits.toContinues hplaced hfills hlabels hshows
      (List.Subset.refl used) (by rintro _ _ ⟨⟩)
    exact (List.forall_mem_cons.mp hall).2

/-- To close an element uses no key. -/
theorem inheriting_closeElement (h₀ : d₀.WellFormed) {p : Patcher} {q : Progress}
    (hfault : p.fault = none) (h : p.dom.WellFormed)
    (hshows : p.dom.Shows target p.frames q.opened q.done) (hin : p.Inheriting d₀ used)
    (tag : String) : (closeElement tag p).Inheriting d₀ used := by
  obtain ⟨frame, outer, hframes, hshows⟩ := exists_frame hshows
  have hawaits : ∀ g ∈ frame :: outer, d₀.Awaits p.dom used g := hframes ▸ hin.awaits
  simp only [closeElement, hfault, hframes, Option.isSome_none, Bool.false_eq_true, if_false]
  cases outer with
  | nil => exact ⟨hin.inherits, hawaits⟩
  | cons around rest =>
    dsimp only
    split
    · have haw := hawaits frame List.mem_cons_self
      exact ⟨hin.inherits.cut h₀ h haw,
        awaits_cut hawaits hin.inherits.toContinues h₀ h hshows⟩
    · exact ⟨hin.inherits, hawaits⟩

/-- An instruction keeps the invariant, if it opens no key that was opened before. -/
theorem Inheriting.replay (h₀ : d₀.WellFormed) {p : Patcher} {q : Progress}
    (hfollows : p.Follows target (some q)) (hin : p.Inheriting d₀ used) (i : Instruction)
    (hkey : ∀ key ∈ i.key?, key ∉ used) (hsize : (i.replay p).dom.slots.size ≤ maxSlots) :
    (i.replay p).Inheriting d₀ (i.key?.toList ++ used) := by
  cases hfollows with
  | running hfault h hshows =>
    cases i with
    | openElement tag key attrs =>
      exact inheriting_openElement h₀ hfault h hshows hin (hkey key rfl) attrs hsize
    | closeElement tag => exact inheriting_closeElement h₀ hfault h hshows hin tag
    | text content => exact inheriting_text h₀ hfault h hshows hin content hsize

/-! ## A whole stream -/

/-- A stream in which no key is opened twice, nor one that was opened before, keeps the
invariant. -/
theorem Inheriting.replayAll (h₀ : d₀.WellFormed) {p : Patcher} {q q' : Progress}
    (hfollows : p.Follows target (some q)) (hin : p.Inheriting d₀ used)
    {stream : List Instruction} (hrun : q.run stream = some q')
    (hkeys : (stream.filterMap Instruction.key?).Nodup)
    (hfresh : ∀ key ∈ stream.filterMap Instruction.key?, key ∉ used)
    (hsize : (Instruction.replayAll stream p).dom.slots.size ≤ maxSlots) :
    ∃ used', (Instruction.replayAll stream p).Inheriting d₀ used' := by
  induction stream generalizing p q used with
  | nil => exact ⟨used, hin⟩
  | cons i rest ih =>
    have hstep := (slots_size_le_replayAll (i.replay p) rest).trans hsize
    obtain ⟨next, hnext, hrest⟩ := Option.bind_eq_some_iff.mp hrun
    have hfollows' := hfollows.replay i hstep
    rw [Option.bind_some, hnext] at hfollows'
    have hsplit : (i :: rest).filterMap Instruction.key? =
        i.key?.toList ++ rest.filterMap Instruction.key? := by
      cases hkey : i.key? <;> simp [hkey]
    rw [hsplit] at hkeys hfresh
    obtain ⟨-, hkeys', hapart⟩ := List.nodup_append.mp hkeys
    have hin' := hin.replay h₀ hfollows i
      (fun key hkey => hfresh key (List.mem_append_left _ (Option.mem_toList.mpr hkey))) hstep
    refine ih hfollows' hin' hrest hkeys' ?_ hsize
    intro key hkey hmem
    rcases List.mem_append.mp hmem with hnow | hbefore
    · exact hapart key hnow key hkey rfl
    · exact hfresh key (List.mem_append_right _ hkey) hbefore

/-- The end of a patch keeps the invariant. -/
theorem Inheriting.finish (h₀ : d₀.WellFormed) {p : Patcher} {q : Option Progress}
    (hfollows : p.Follows target q) (hin : p.Inheriting d₀ used) : d₀.Inherits p.finish.2 := by
  have hsummary : ∀ {d : Dom}, d₀.Inherits d →
      ∀ summary, d₀.Inherits { d with lastPatch := summary } := fun h _ =>
    ⟨⟨h.parent?_eq, h.label?_eq, h.fresh⟩, h.unmatched⟩
  unfold Patcher.finish
  split
  · exact hsummary hin.inherits _
  · next root _ hframes =>
    have haw := hin.awaits root (by simp [hframes])
    exact hsummary (hin.inherits.cut h₀ hfollows.wellFormed haw) _
  · exact hsummary hin.inherits _
  · exact hsummary hin.inherits _

end Patcher

namespace Dom

/-- The tree that a patch leaves inherits from the tree before it, if the patch follows a balanced
stream in which no key is opened twice. -/
theorem WellFormed.inherits_patch {d : Dom} (h : d.WellFormed) {target : NodeId}
    (helement : d.isElement target = true) {stream : List Instruction} {forest : List LiveNode}
    (hforest : Instruction.forest? stream = some forest)
    (hkeys : (stream.filterMap Instruction.key?).Nodup)
    (hsize : (d.patch target stream).2.slots.size ≤ maxSlots) :
    d.Inherits (d.patch target stream).2 := by
  rw [patch_of_isElement d helement] at hsize ⊢
  rw [Patcher.slots_size_finish] at hsize
  have hstart := Patcher.follows_start h helement
  have hin : Patcher.Inheriting { dom := d, frames := [{ parent := target }] } d [] :=
    ⟨Inherits.refl d, by simpa using awaits_start h target⟩
  obtain ⟨used, hend⟩ := hin.replayAll h hstart (Instruction.forest?_eq_some_iff.mp hforest) hkeys
    (fun _ _ => List.not_mem_nil) hsize
  exact hend.finish h (hstart.replayAll stream hsize)

end Dom
end LiveMarkup
