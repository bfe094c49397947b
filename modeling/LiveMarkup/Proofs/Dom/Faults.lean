import LiveMarkup.Proofs.Dom.Handles

/-!
# How a patch fails

A patch succeeds below a live element just if its stream is balanced.  Otherwise there is a first
close at fault, and the patch stops there with what was done before, or else some element is left
open in the end.  Below anything but a live element a patch does nothing at all.

Main definitions:

- `Patcher.brokenOff`: the tree that a patch leaves when it does not come to its end.

Main results:

- `Dom.WellFormed.patch_of_firstFault`, `Dom.WellFormed.patch_of_leftOpen`: the two ways to fail.
- `Dom.Reachable.patch_stops_at_first_fault`: when a patch fails, why, and what it leaves.
-/

namespace LiveMarkup

/-! ## Faults while a patch runs -/

namespace Patcher

open Dom

variable {target : NodeId}

/-- The tree that a patch leaves when it does not come to its end: what it has done so far, and what
it has counted. -/
def brokenOff (p : Patcher) : Dom :=
  { p.dom with lastPatch := p.summary }

/-- After a fault no instruction is followed. -/
theorem replayAll_of_fault {p : Patcher} (hfault : p.fault.isSome = true)
    (stream : List Instruction) : Instruction.replayAll stream p = p := by
  induction stream with
  | nil => rfl
  | cons i rest ih =>
    rw [Instruction.replayAll, List.foldl_cons, replay_of_fault hfault]
    exact ih

/-- After a fault, a patch is broken off. -/
theorem finish_of_fault {p : Patcher} {e : DomError} (hfault : p.fault = some e) :
    p.finish = (.error e, p.brokenOff) := by
  rw [finish, hfault]
  rfl

/-- A close that does not name the innermost open element is a fault, and changes nothing else. -/
theorem Follows.closeElement_eq {p : Patcher} {q : Progress} (hp : p.Follows target (some q))
    {tag : String} (htag : (q.opened.map (·.tag)).head? ≠ some tag) :
    closeElement tag p = { p with fault := some (.unbalancedClose tag) } := by
  obtain ⟨dom, frames, summary, fault⟩ := p
  obtain ⟨opened, done⟩ := q
  cases hp with
  | running hfault h hshows =>
    cases hfault
    cases hshows with
    | target helement hnext => rfl
    | @entered id parent next at' frames o opened houter hchild hself hnext =>
      have hother : dom.tag? id ≠ some tag := by
        simpa [tag?, element?, hself] using htag
      simp [closeElement, hother]

/-- A patch that has read its whole stream is broken off if an element is left open. -/
theorem Follows.finish_of_opened {p : Patcher} {q : Progress} (hp : p.Follows target (some q))
    {o : OpenElement} {outer : List OpenElement} (hopened : q.opened = o :: outer) :
    p.finish = (.error (.unclosed o.tag), p.brokenOff) := by
  obtain ⟨dom, frames, summary, fault⟩ := p
  obtain ⟨opened, done⟩ := q
  cases hopened
  cases hp with
  | running hfault h hshows =>
    cases hfault
    cases hshows with
    | entered houter hchild hself hnext =>
      simp [Patcher.finish, brokenOff, tag?, element?, hself]

end Patcher

/-! ## Faults of a stream -/

namespace Dom

variable {d : Dom} {target : NodeId}

/-- What can be read leaves open the tags that are expected. -/
theorem exists_run_of_openTags {stream : List Instruction} {tags : List String}
    (htags : Instruction.openTags [] stream = some tags) :
    ∃ q, ({} : Progress).run stream = some q ∧ q.opened.map (·.tag) = tags := by
  rw [← List.map_nil (f := OpenElement.tag), ← Progress.map_opened_run {} stream] at htags
  exact Option.map_eq_some_iff.mp htags

/-- A patch stops at the first close that is at fault, whatever comes after it. -/
theorem WellFormed.patch_of_firstFault (h : d.WellFormed) (helement : d.isElement target = true)
    {before after : List Instruction} {tag : String}
    (hfault : Instruction.FirstFault before tag)
    (hsize : (d.patch target (before ++ .closeElement tag :: after)).2.slots.size ≤ maxSlots) :
    d.patch target (before ++ .closeElement tag :: after) =
      (.error (.unbalancedClose tag), (d.walk target before).brokenOff) := by
  obtain ⟨tags, htags, hother⟩ := hfault
  obtain ⟨q, hrun, rfl⟩ := exists_run_of_openTags htags
  have hwalk : d.patch target (before ++ .closeElement tag :: after) =
      (Instruction.replayAll (.closeElement tag :: after) (d.walk target before)).finish := by
    rw [patch_of_isElement d helement, ← walk_append]
    rfl
  rw [hwalk] at hsize ⊢
  rw [Patcher.slots_size_finish] at hsize
  have hfollows := h.follows_walk helement before
    ((Patcher.slots_size_le_replayAll _ _).trans hsize)
  rw [hrun] at hfollows
  have hstop : Instruction.replayAll (.closeElement tag :: after) (d.walk target before) =
      { d.walk target before with fault := some (.unbalancedClose tag) } := by
    show Instruction.replayAll after (Patcher.closeElement tag (d.walk target before)) = _
    rw [hfollows.closeElement_eq hother, Patcher.replayAll_of_fault rfl]
  rw [hstop, Patcher.finish_of_fault rfl]
  rfl

/-- A patch fails in the end if an element is left open, and names the innermost one. -/
theorem WellFormed.patch_of_leftOpen (h : d.WellFormed) (helement : d.isElement target = true)
    {stream : List Instruction} {tag : String} {outer : List String}
    (htags : Instruction.openTags [] stream = some (tag :: outer))
    (hsize : (d.patch target stream).2.slots.size ≤ maxSlots) :
    d.patch target stream = (.error (.unclosed tag), (d.walk target stream).brokenOff) := by
  obtain ⟨⟨opened, done⟩, hrun, hopened⟩ := exists_run_of_openTags htags
  obtain ⟨o, rest, rfl, rfl, -⟩ := List.map_eq_cons_iff.mp hopened
  rw [patch_of_isElement d helement] at hsize ⊢
  rw [Patcher.slots_size_finish] at hsize
  have hfollows := h.follows_walk helement stream hsize
  rw [hrun] at hfollows
  exact hfollows.finish_of_opened rfl

/-- Below a handle that is no live element, a patch does not run its body and changes nothing. -/
theorem patchWith_of_requireElement {e : DomError} (hrequire : d.requireElement target = .error e)
    {α : Type} (body : Patcher → α × Patcher) :
    d.patchWith target body = (.error e, none, d) := by
  rw [patchWith, hrequire]

theorem requireElement_of_not_isElement (hlive : d.isLive target = true)
    (helement : d.isElement target = false) :
    d.requireElement target = .error (.notAnElement target) := by
  rw [isLive_eq_data?, Option.isSome_iff_exists] at hlive
  obtain ⟨data, hdata⟩ := hlive
  cases data with
  | element e => simp [isElement, element?, hdata] at helement
  | text content => simp [requireElement, hdata]
  | comment content => simp [requireElement, hdata]

/-- Below a live element of a reachable tree, a patch succeeds just if its stream is balanced.  A
stream that cannot be read has a first close at fault; the patch then reports the tag of that close
and leaves the tree and the summary as they were just before it, whatever comes after.  If the
stream can be read but leaves elements open, the patch reports the tag of the innermost one.  Below
a dead handle, or a node that is no element, the patch reports that and changes nothing, and its
body is not run. -/
theorem Reachable.patch_stops_at_first_fault (h : d.Reachable) (target : NodeId)
    (stream : List Instruction) (hsize : (d.patch target stream).2.slots.size ≤ maxSlots) :
    (d.isElement target = true →
      ((d.patch target stream).1 = .ok () ↔ Instruction.Balanced stream) ∧
      (Instruction.openTags [] stream = none ↔ ∃ before tag after,
        stream = before ++ .closeElement tag :: after ∧ Instruction.FirstFault before tag) ∧
      (∀ before tag after, stream = before ++ .closeElement tag :: after →
        Instruction.FirstFault before tag →
          d.patch target stream =
            (.error (.unbalancedClose tag), (d.walk target before).brokenOff)) ∧
      ∀ tag outer, Instruction.openTags [] stream = some (tag :: outer) →
        d.patch target stream = (.error (.unclosed tag), (d.walk target stream).brokenOff)) ∧
    (d.isLive target = false → ∀ (α : Type) (body : Patcher → α × Patcher),
      d.patchWith target body = (.error (.unknownNode target), none, d)) ∧
    (d.isLive target = true → d.isElement target = false →
      ∀ (α : Type) (body : Patcher → α × Patcher),
        d.patchWith target body = (.error (.notAnElement target), none, d)) := by
  have hwf := h.wellFormed ((slots_size_le_patch d target stream).trans hsize)
  refine ⟨fun helement => ?_, fun hdead α body => ?_, fun hlive hother α body => ?_⟩
  · have hfirst : ∀ before tag after, stream = before ++ .closeElement tag :: after →
        Instruction.FirstFault before tag → d.patch target stream =
          (.error (.unbalancedClose tag), (d.walk target before).brokenOff) := by
      rintro before tag after rfl hfault
      exact hwf.patch_of_firstFault helement hfault hsize
    have hopen : ∀ tag outer, Instruction.openTags [] stream = some (tag :: outer) →
        d.patch target stream = (.error (.unclosed tag), (d.walk target stream).brokenOff) :=
      fun _ _ htags => hwf.patch_of_leftOpen helement htags hsize
    refine ⟨⟨fun hok => ?_, fun hbalanced => ?_⟩, Instruction.openTags_eq_none_iff, hfirst, hopen⟩
    · -- A stream that is not balanced fails in one of the two ways.
      cases htags : Instruction.openTags [] stream with
      | none =>
        obtain ⟨before, tag, after, hstream, hfault⟩ := Instruction.openTags_eq_none_iff.mp htags
        rw [hfirst before tag after hstream hfault] at hok
        cases hok
      | some tags =>
        cases tags with
        | nil => exact htags
        | cons tag outer =>
          rw [hopen tag outer htags] at hok
          cases hok
    · exact (h.patch_converges helement hbalanced hsize).1
  · exact patchWith_of_requireElement (requireElement_of_not_isLive hdead) body
  · exact patchWith_of_requireElement (requireElement_of_not_isElement hlive hother) body

/-- Below a list, after one item with a text, a stream closes an element with the tag of the list
itself: the patch stops there, and the text that comes later is not placed. -/
theorem Reachable.patch_stops_at_first_fault_at_own_tag :
    let d := [Operation.createElement "ul",
      .patch ⟨0, 0⟩ [.openElement "li" "a" [], .text "x", .closeElement "li"]].foldl Dom.perform {}
    let before := [Instruction.openElement "li" "a" [], .text "y", .closeElement "li"]
    let stream := before ++ [.closeElement "ul", .text "z"]
    (d.patch ⟨0, 0⟩ stream).2.slots.size ≤ maxSlots ∧ d.tag? ⟨0, 0⟩ = some "ul" ∧
      Instruction.FirstFault before "ul" ∧
      d.patch ⟨0, 0⟩ stream =
        (.error (.unbalancedClose "ul"), (d.walk ⟨0, 0⟩ before).brokenOff) ∧
      (d.patch ⟨0, 0⟩ stream).2.lastPatch = { reused := 2 } := by
  intro d before stream
  have hsize : (d.patch ⟨0, 0⟩ stream).2.slots.size ≤ maxSlots := by decide +kernel
  have hfault : Instruction.FirstFault before "ul" := ⟨[], rfl, by decide⟩
  have hreachable : d.Reachable := Reachable.empty.foldl_perform _
  have helement : d.isElement ⟨0, 0⟩ = true := by decide +kernel
  obtain ⟨hrun, -, -⟩ := hreachable.patch_stops_at_first_fault ⟨0, 0⟩ stream hsize
  obtain ⟨-, -, hstop, -⟩ := hrun helement
  exact ⟨hsize, by decide +kernel, hfault, hstop before "ul" [.text "z"] rfl hfault,
    by decide +kernel⟩

end Dom
end LiveMarkup
