import LiveMarkup.Proofs.Dom.Heirs
import LiveMarkup.Proofs.Dom.Repetition

/-!
# The nodes that a patch places

A patch places a node for every element that it opens and for every text.  It counts each of them
once, and as created exactly if the node was not there before.

Main definitions:

- `Counter`, `PatchSummary.count`, `PatchSummary.counting`: the counters of a summary.
- `Placement`, `Patcher.placements`, `Dom.placements`: what a patch places and how it is counted, in
  the order of the stream.

Main results:

- `Placement.length_eq`: what is placed, counter by counter.
- `Patcher.exists_placement_openElement`, `Patcher.exists_placement_text`: how an instruction counts
  the node that it places.
- `Patcher.Follows.length_placements`: a stream places one node for each element and each text.
-/

namespace LiveMarkup

/-! ## Counters -/

/-- How a patch counts a node that it places. -/
inductive Counter where
  | created
  | reused
  | moved
  deriving DecidableEq, Repr

namespace PatchSummary

/-- How many nodes were counted in a way. -/
def count (s : PatchSummary) : Counter → Nat
  | .created => s.created
  | .reused => s.reused
  | .moved => s.moved

/-- A summary in which one more node is counted. -/
def counting (s : PatchSummary) : Counter → PatchSummary
  | .created => { s with created := s.created + 1 }
  | .reused => { s with reused := s.reused + 1 }
  | .moved => { s with moved := s.moved + 1 }

/-- The counter that is higher in another summary. -/
def raised? (before after : PatchSummary) : Option Counter :=
  [.created, .reused, .moved].find? fun c => before.count c < after.count c

variable (s : PatchSummary) (c : Counter)

theorem count_counting (c' : Counter) :
    (s.counting c).count c' = s.count c' + if c = c' then 1 else 0 := by
  cases c <;> cases c' <;> rfl

theorem removed_counting : (s.counting c).removed = s.removed := by
  cases c <;> rfl

theorem raised?_counting : s.raised? (s.counting c) = some c := by
  cases c <;> simp [raised?, count, counting]

/-- What is removed is counted apart. -/
theorem raised?_removed (n : Nat) : s.raised? { s with removed := n } = none := by
  simp [raised?, count]

end PatchSummary

/-- A node that was placed, and how it was counted. -/
structure Placement where
  counter : Counter
  node : NodeId
  deriving DecidableEq, Repr

namespace Placement

/-- Everything that was placed was counted in one of the three ways. -/
theorem length_eq (ps : List Placement) :
    ps.length = ps.countP (·.counter = .created) + ps.countP (·.counter = .reused) +
      ps.countP (·.counter = .moved) := by
  induction ps with
  | nil => rfl
  | cons q rest ih =>
    obtain ⟨counter, node⟩ := q
    cases counter <;> simp [ih] <;> omega

end Placement

namespace Patcher

/-- What an instruction places: the node at the cursor, if a counter went up. -/
def placement? (p : Patcher) (i : Instruction) : Option Placement :=
  match p.summary.raised? (i.replay p).summary, p.frames with
  | some counter, frame :: _ =>
    (((i.replay p).dom.children frame.parent)[frame.next]?).map fun node => { counter, node }
  | _, _ => none

/-- What instructions place, in their order. -/
def placements (p : Patcher) : List Instruction → List Placement
  | [] => []
  | i :: rest => (p.placement? i).toList ++ placements (i.replay p) rest

end Patcher

/-- What a patch places below a target. -/
def Dom.placements (d : Dom) (target : NodeId) (stream : List Instruction) : List Placement :=
  Patcher.placements { dom := d, frames := [{ parent := target }] } stream

/-! ## One instruction -/

namespace Patcher

open Dom

variable {p : Patcher} {target id : NodeId} {frame : Cursor} {outer : List Cursor}
  {data : LiveData} {tag key content : String} {attrs : List Attribute}

/-- An element that is found is counted as reused or moved, one that is made as created. -/
theorem counts_place {d : Dom} (h : d.WellFormed) (summary : PatchSummary) (frame : Cursor)
    (tag key : String) (hsize : (place d summary frame tag key).2.1.slots.size ≤ maxSlots) :
    ∃ counter, (place d summary frame tag key).2.2 = summary.counting counter ∧
      (counter = .created ↔ d.isLive (place d summary frame tag key).1 = false) := by
  unfold place at hsize ⊢
  split
  · next index id hfind =>
    obtain ⟨-, hget, -⟩ := findFrom?_eq_some hfind
    have hlive := h.isLive_child (List.mem_of_getElem? hget)
    split
    · exact ⟨.reused, rfl, by simp [hlive]⟩
    · exact ⟨.moved, rfl, by simp [hlive]⟩
  · next hfind =>
    rw [hfind] at hsize
    dsimp only at hsize
    rw [slots_size_insertChild] at hsize
    exact ⟨.created, rfl, by simp [isLive_alloc_fresh h.toFreeExact _ hsize]⟩

/-- A text that is taken over is counted as reused, one that is made as created. -/
theorem counts_text (h : p.dom.WellFormed) (hfault : p.fault = none)
    (hframes : p.frames = frame :: outer) (hparent : p.dom.isLive frame.parent = true)
    (hnext : frame.next ≤ (p.dom.children frame.parent).length)
    (hsize : (text content p).dom.slots.size ≤ maxSlots)
    (hid : ((text content p).dom.children frame.parent)[frame.next]? = some id) :
    ∃ counter, (text content p).summary = p.summary.counting counter ∧
      (counter = .created ↔ p.dom.isLive id = false) := by
  simp only [text, hfault, hframes, Option.isSome_none, Bool.false_eq_true, if_false]
    at hsize hid ⊢
  split at hid
  · next old hreuse =>
    rw [children_modify] at hid
    · have hlive := h.isLive_child (List.mem_of_getElem? hid)
      exact ⟨.reused, rfl, by simp [hlive]⟩
    · intro e
      unfold setText
      split <;> rfl
  · next hnone =>
    rw [hnone] at hsize
    dsimp only at hsize hid
    rw [slots_size_insertChild] at hsize
    have hplaced := placed_alloc h (.text content) hsize hparent hnext
    rw [hplaced.getElem?_next hnext, Option.some.injEq] at hid
    exact ⟨.created, rfl, by simp [← hid, isLive_alloc_fresh h.toFreeExact _ hsize]⟩

/-- What is placed stands at the cursor. -/
theorem placement?_of_placed {i : Instruction} {counter : Counter}
    (hframes : p.frames = frame :: outer)
    (hnext : frame.next ≤ (p.dom.children frame.parent).length)
    (hplaced : p.dom.Placed (i.replay p).dom frame id data)
    (hcounts : (i.replay p).summary = p.summary.counting counter) :
    p.placement? i = some ⟨counter, id⟩ := by
  rw [placement?, hcounts, PatchSummary.raised?_counting, hframes]
  simp only [hplaced.getElem?_next hnext, Option.map_some]

/-- How an element that is opened is counted. -/
theorem exists_placement_openElement {rest : List Cursor} (h : p.dom.WellFormed)
    (hfault : p.fault = none) (hframes : p.frames = frame :: outer)
    (hnext : frame.next ≤ (p.dom.children frame.parent).length)
    (hsize : (openElement tag key attrs p).dom.slots.size ≤ maxSlots)
    (hplaced : p.dom.Placed (openElement tag key attrs p).dom frame id data)
    (hentered : (openElement tag key attrs p).frames = { parent := id } :: rest) :
    ∃ counter, p.placement? (.openElement tag key attrs) = some ⟨counter, id⟩ ∧
      (openElement tag key attrs p).summary = p.summary.counting counter ∧
      (counter = .created ↔ p.dom.isLive id = false) := by
  have hid := eq_place_of_frames hfault hframes hentered
  have hsummary : (openElement tag key attrs p).summary =
      (place p.dom p.summary frame tag key).2.2 := by
    simp [openElement, hfault, hframes]
  have hbound : (place p.dom p.summary frame tag key).2.1.slots.size ≤ maxSlots := by
    simpa [openElement, hfault, hframes, slots_size_modifyElement] using hsize
  obtain ⟨counter, hcounts, hcreated⟩ := counts_place h p.summary frame tag key hbound
  rw [← hsummary] at hcounts
  rw [← hid] at hcreated
  exact ⟨counter, placement?_of_placed hframes hnext hplaced hcounts, hcounts, hcreated⟩

/-- How a text that is placed is counted. -/
theorem exists_placement_text (h : p.dom.WellFormed) (hfault : p.fault = none)
    (hframes : p.frames = frame :: outer) (hparent : p.dom.isLive frame.parent = true)
    (hnext : frame.next ≤ (p.dom.children frame.parent).length)
    (hsize : (text content p).dom.slots.size ≤ maxSlots)
    (hplaced : p.dom.Placed (text content p).dom frame id data) :
    ∃ counter, p.placement? (.text content) = some ⟨counter, id⟩ ∧
      (text content p).summary = p.summary.counting counter ∧
      (counter = .created ↔ p.dom.isLive id = false) := by
  obtain ⟨counter, hcounts, hcreated⟩ :=
    counts_text h hfault hframes hparent hnext hsize (hplaced.getElem?_next hnext)
  exact ⟨counter, placement?_of_placed hframes hnext hplaced hcounts, hcounts, hcreated⟩

/-- To close an element places nothing. -/
theorem placement?_closeElement (p : Patcher) (tag : String) :
    p.placement? (.closeElement tag) = none := by
  have hraised : p.summary.raised? (closeElement tag p).summary = none := by
    unfold closeElement
    split
    · exact p.summary.raised?_removed p.summary.removed
    · split
      · split
        · exact p.summary.raised?_removed _
        · exact p.summary.raised?_removed p.summary.removed
      · exact p.summary.raised?_removed p.summary.removed
  have hreplay : (Instruction.closeElement tag).replay p = closeElement tag p := rfl
  rw [placement?, hreplay, hraised]

/-! ## A whole stream -/

theorem Follows.length_placement? {q : Progress} (hp : p.Follows target (some q))
    (i : Instruction) (hsize : (i.replay p).dom.slots.size ≤ maxSlots) :
    (p.placement? i).toList.length = if i.places then 1 else 0 := by
  cases hp with
  | running hfault h hshows =>
    obtain ⟨frame, outer, hframes, hshows⟩ := exists_frame hshows
    cases i with
    | openElement tag key attrs =>
      obtain ⟨id, hplaced, hframes', -⟩ :=
        openElement_spec h hfault hframes hshows.isLive hshows.next_le hsize
      obtain ⟨counter, hplacement, -⟩ :=
        exists_placement_openElement h hfault hframes hshows.next_le hsize hplaced hframes'
      rw [hplacement]
      rfl
    | closeElement tag =>
      rw [placement?_closeElement]
      rfl
    | text content =>
      obtain ⟨id, hplaced, -, -⟩ :=
        text_spec h hfault hframes hshows.isLive hshows.next_le hsize
      obtain ⟨counter, hplacement, -⟩ :=
        exists_placement_text h hfault hframes hshows.isLive hshows.next_le hsize hplaced
      rw [hplacement]
      rfl

/-- A stream that can be read places one node for each element that it opens and each text. -/
theorem Follows.length_placements {q q' : Progress} {stream : List Instruction}
    (hp : p.Follows target (some q)) (hrun : q.run stream = some q')
    (hsize : (Instruction.replayAll stream p).dom.slots.size ≤ maxSlots) :
    (p.placements stream).length = stream.countP Instruction.places := by
  induction stream generalizing p q with
  | nil => rfl
  | cons i rest ih =>
    have hstep := (slots_size_le_replayAll (i.replay p) rest).trans hsize
    obtain ⟨next, hnext, hrest⟩ := Option.bind_eq_some_iff.mp hrun
    have hp' := hp.replay i hstep
    rw [Option.bind_some, hnext] at hp'
    rw [placements, List.length_append, hp.length_placement? i hstep, ih hp' hrest hsize,
      List.countP_cons, Nat.add_comm]

end Patcher
end LiveMarkup
