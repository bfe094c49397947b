import LiveMarkup.Proofs.Dom.Placement
import LiveMarkup.Proofs.Dom.Release
import LiveMarkup.Proofs.Dom.Trees
import LiveMarkup.Proofs.Patch.Stream

/-!
# A patch while it runs

While a patch runs, the children before each cursor are done: they show the trees that the stream
has denoted so far.  The frames of the walk are the open elements of the stream, one to one, and
every change happens at or after a cursor, so what is done stays as it is.

Main definitions:

- `Dom.shown`: the trees before a cursor.
- `Dom.Shows`: frames show the open elements and the done trees of a stream.
- `Dom.SameBefore`: trees that differ only at or after a cursor.
- `Patcher.Follows`: the invariant of a patch.
- `Dom.walk`: a patch before it ends.

Main results:

- `Dom.Shows.frame`: changes at or after the innermost cursor leave everything shown as it is.
- `Patcher.Follows.replay`, `Patcher.Follows.replayAll`: one instruction keeps the invariant, and so
  does a whole stream.
- `Patcher.Follows.finish_eq`: the end of a patch that has read a balanced stream.
- `Dom.WellFormed.patch`: the tree stays well-formed.
- `Dom.WellFormed.forest_patch`: a balanced stream leaves the forest that it denotes.
-/

namespace LiveMarkup
namespace Dom

variable {d : Dom} {target : NodeId}

/-- The trees of the children before a cursor. -/
def shown (d : Dom) (parent : NodeId) (next : Nat) : List LiveNode :=
  ((d.children parent).take next).filterMap d.tree?

/-- Frames show the progress of a stream: the children before the innermost cursor show the trees
done so far, and every element that is entered stands at the cursor of the frame around it, after
the trees that came before it. -/
inductive Shows (d : Dom) (target : NodeId) :
    List Cursor → List OpenElement → List LiveNode → Prop where
  | target {next : Nat} (helement : d.isElement target = true)
      (hnext : next ≤ (d.children target).length) :
      Shows d target [⟨target, next⟩] [] (d.shown target next)
  | entered {id parent : NodeId} {next at' : Nat} {frames : List Cursor} {o : OpenElement}
      {opened : List OpenElement} (houter : Shows d target (⟨parent, at'⟩ :: frames) opened o.before)
      (hchild : (d.children parent)[at']? = some id)
      (hself : d.data? id = some (.element { tag := o.tag, key := some o.key, attrs := o.attrs }))
      (hnext : next ≤ (d.children id).length) :
      Shows d target (⟨id, next⟩ :: ⟨parent, at' + 1⟩ :: frames) (o :: opened) (d.shown id next)

/-! ## Changes at or after a cursor -/

/-- Two trees differ only at or after a cursor: its node keeps its data and the children before it,
and all nodes keep theirs that are neither that node nor below a child from the cursor on. -/
structure SameBefore (d d' : Dom) (parent : NodeId) (next : Nat) : Prop where
  data_eq : d'.data? parent = d.data? parent
  take_eq : (d'.children parent).take next = (d.children parent).take next
  outside : ∀ x, d.isLive x = true → x ≠ parent → ¬ d.InCut parent next x →
    d'.data? x = d.data? x ∧ d'.children x = d.children x

namespace SameBefore

variable {d' : Dom} {parent : NodeId} {next : Nat}

theorem le_length (hsame : d.SameBefore d' parent next)
    (hnext : next ≤ (d.children parent).length) : next ≤ (d'.children parent).length := by
  have hlength := congrArg List.length hsame.take_eq
  rw [List.length_take, List.length_take] at hlength
  omega

/-- The trees before the cursor are the same. -/
theorem shown_eq (hsame : d.SameBefore d' parent next) (h : d.WellFormed) (h' : d'.WellFormed) :
    d'.shown parent next = d.shown parent next := by
  rw [shown, shown, hsame.take_eq]
  refine List.filterMap_congr ?_
  intro c hc
  have hparent := h.parent_of_mem (List.mem_of_mem_take hc)
  refine tree?_congr h h' ?_
  intro x hx
  refine hsame.outside x (hx.isLive (isLive_of_parent? hparent)) ?_
    (not_inCut_of_mem_take h hc hx)
  rintro rfl
  exact h.not_below_parent hparent hx

/-- What is at or after a cursor in a node is at or after the cursor at that node. -/
theorem outer (hsame : d.SameBefore d' parent next) (h : d.WellFormed) {above : NodeId}
    {at' : Nat} (hchild : (d.children above)[at']? = some parent) :
    d.SameBefore d' above at' := by
  have hparent := h.parent_of_mem (List.mem_of_getElem? hchild)
  have hdrop : parent ∈ (d.children above).drop at' := by
    rw [List.drop_eq_getElem?_toList_append, hchild]
    simp
  have hinner : ∀ x, ¬ d.InCut above at' x → x ≠ parent ∧ ¬ d.InCut parent next x := by
    intro x hx
    refine ⟨?_, fun hcut => hx ⟨parent, hdrop, hcut.below h⟩⟩
    rintro rfl
    exact hx ⟨x, hdrop, Below.refl d x⟩
  have habove := hinner above (not_inCut_self h above at')
  obtain ⟨hdata, hchildren⟩ := hsame.outside above (h.isLive_parent hparent) habove.1 habove.2
  refine ⟨hdata, by rw [hchildren], ?_⟩
  intro x hlive _ hx
  exact hsame.outside x hlive (hinner x hx).1 (hinner x hx).2

/-- The child at the outer cursor is the same. -/
theorem getElem?_outer (hsame : d.SameBefore d' parent next) (h : d.WellFormed) {above : NodeId}
    {at' : Nat} (hchild : (d.children above)[at']? = some parent) :
    (d'.children above)[at']? = some parent := by
  have hparent := h.parent_of_mem (List.mem_of_getElem? hchild)
  have hcut : ¬ d.InCut parent next above := by
    intro hcut
    exact h.not_below_parent hparent (hcut.below h)
  have hne : above ≠ parent := (h.ne_parent hparent).symm
  rw [(hsame.outside above (h.isLive_parent hparent) hne hcut).2, hchild]

end SameBefore

namespace Shows

theorem isElement {frame : Cursor} {frames : List Cursor} {opened : List OpenElement}
    {done : List LiveNode} (hshows : d.Shows target (frame :: frames) opened done) :
    d.isElement frame.parent = true := by
  cases hshows with
  | target helement _ => exact helement
  | entered _ _ hself _ => simp [Dom.isElement, element?, hself]

theorem isLive {frame : Cursor} {frames : List Cursor} {opened : List OpenElement}
    {done : List LiveNode} (hshows : d.Shows target (frame :: frames) opened done) :
    d.isLive frame.parent = true :=
  isLive_of_isElement hshows.isElement

/-- The cursor of the innermost frame stands among the children. -/
theorem next_le {frame : Cursor} {frames : List Cursor} {opened : List OpenElement}
    {done : List LiveNode} (hshows : d.Shows target (frame :: frames) opened done) :
    frame.next ≤ (d.children frame.parent).length := by
  cases hshows with
  | target _ hnext => exact hnext
  | entered _ _ _ hnext => exact hnext

/-- What is done at the innermost frame is what stands before its cursor. -/
theorem done_eq {frame : Cursor} {frames : List Cursor} {opened : List OpenElement}
    {done : List LiveNode} (hshows : d.Shows target (frame :: frames) opened done) :
    done = d.shown frame.parent frame.next := by
  cases hshows <;> rfl

/-- The innermost cursor may be moved. -/
theorem move {parent : NodeId} {next next' : Nat} {frames : List Cursor}
    {opened : List OpenElement} {done : List LiveNode}
    (hshows : d.Shows target (⟨parent, next⟩ :: frames) opened done)
    (hnext : next' ≤ (d.children parent).length) :
    d.Shows target (⟨parent, next'⟩ :: frames) opened (d.shown parent next') := by
  cases hshows with
  | target helement _ => exact .target helement hnext
  | entered houter hchild hself _ => exact .entered houter hchild hself hnext

/-- Past a child with a tree, the cursor has one more tree before it. -/
theorem advance {parent id : NodeId} {next : Nat} {frames : List Cursor}
    {opened : List OpenElement} {done : List LiveNode} {tree : LiveNode}
    (hshows : d.Shows target (⟨parent, next⟩ :: frames) opened done)
    (hchild : (d.children parent)[next]? = some id) (htree : d.tree? id = some tree) :
    d.Shows target (⟨parent, next + 1⟩ :: frames) opened (done ++ [tree]) := by
  have hlt := (List.getElem?_eq_some_iff.mp hchild).1
  have hshown : d.shown parent (next + 1) = done ++ [tree] := by
    rw [hshows.done_eq, shown, shown, List.take_add_one, hchild]
    simp [List.filterMap_append, htree]
  rw [← hshown]
  exact hshows.move hlt

/-- Changes at or after the innermost cursor leave everything shown as it is. -/
theorem frame (h : d.WellFormed) {d' : Dom} (h' : d'.WellFormed) {frames : List Cursor}
    {opened : List OpenElement} {done : List LiveNode}
    (hshows : d.Shows target frames opened done) :
    ∀ {innermost : Cursor} {outer : List Cursor}, frames = innermost :: outer →
      d.SameBefore d' innermost.parent innermost.next → d'.Shows target frames opened done := by
  induction hshows with
  | target helement hnext =>
    intro innermost outer heq hsame
    cases heq
    rw [← hsame.shown_eq h h']
    refine .target ?_ (hsame.le_length hnext)
    simpa [Dom.isElement, element?, hsame.data_eq] using helement
  | entered houter hchild hself hnext ih =>
    intro innermost outer heq hsame
    cases heq
    rw [← hsame.shown_eq h h']
    refine .entered (ih rfl (hsame.outer h hchild)) (hsame.getElem?_outer h hchild) ?_
      (hsame.le_length hnext)
    rw [hsame.data_eq, hself]

/-- Placing a node at the innermost cursor leaves everything shown as it is. -/
theorem placed (h : d.WellFormed) {d' : Dom} {frame : Cursor} {frames : List Cursor}
    {opened : List OpenElement} {done : List LiveNode} {id : NodeId} {data : LiveData}
    (hshows : d.Shows target (frame :: frames) opened done)
    (hplaced : d.Placed d' frame id data) :
    d'.Shows target (frame :: frames) opened done ∧
      (d'.children frame.parent)[frame.next]? = some id := by
  have hne : ∀ x, d.isLive x = true → ¬ d.InCut frame.parent frame.next x → x ≠ id := by
    rintro x hlive hx rfl
    rcases hplaced.origin with hdrop | hdead
    · exact hx ⟨x, hdrop, Below.refl d x⟩
    · rw [hlive] at hdead
      cases hdead
  refine ⟨hshows.frame h hplaced.wellFormed rfl ⟨?_, ?_, ?_⟩,
    hplaced.getElem?_next hshows.next_le⟩
  · exact hplaced.data_other _ (hne _ hshows.isLive (not_inCut_self h _ _))
  · rw [hplaced.children_parent, List.take_left' (List.length_take_of_le hshows.next_le)]
  · intro x hlive hx hcut
    exact ⟨hplaced.data_other x (hne x hlive hcut), hplaced.children_other x hx⟩

/-- When the remaining children of the innermost node are cut off, everything shown stays as it is,
and that node shows just what was done in it. -/
theorem cut (h : d.WellFormed) {frame : Cursor} {frames : List Cursor}
    {opened : List OpenElement} {done : List LiveNode}
    (hshows : d.Shows target (frame :: frames) opened done) :
    (d.cut frame.parent frame.next).Shows target (frame :: frames) opened done ∧
      (d.cut frame.parent frame.next).forest frame.parent = done := by
  have hself := not_inCut_self h frame.parent frame.next
  have hchildren : (d.cut frame.parent frame.next).children frame.parent =
      (d.children frame.parent).take frame.next := by
    rw [children_cut h hself, if_pos rfl]
  have hcut : (d.cut frame.parent frame.next).Shows target (frame :: frames) opened done := by
    refine hshows.frame h (h.cut _ _) rfl ⟨data?_cut h hself, ?_, ?_⟩
    · rw [hchildren, List.take_take, Nat.min_self]
    · intro x _ hx hxcut
      exact ⟨data?_cut h hxcut, by rw [children_cut h hxcut, if_neg hx]⟩
  refine ⟨hcut, ?_⟩
  rw [hcut.done_eq, shown, forest, hchildren, List.take_take, Nat.min_self]

/-- To close the innermost element is to cut off its remaining children; it then is one more tree
done in the frame around it. -/
theorem close (h : d.WellFormed) {inner outer : Cursor} {frames : List Cursor} {o : OpenElement}
    {opened : List OpenElement} {done : List LiveNode}
    (hshows : d.Shows target (inner :: outer :: frames) (o :: opened) done) :
    (d.cut inner.parent inner.next).Shows target (outer :: frames) opened
      (o.before ++ [.element o.tag (some o.key) o.attrs done]) := by
  obtain ⟨hcut, hforest⟩ := hshows.cut h
  cases hcut with
  | @entered id above next at' _ _ _ houter hchild hself hnext =>
    refine houter.advance hchild ?_
    rw [tree?_of_data? (h.cut _ _) hself, hforest]
    rfl

end Shows
end Dom

/-! ## The steps of a patch -/

namespace Patcher

open Dom

variable {target : NodeId}

/-- The invariant of a patch.  As long as the stream can be read, there is no fault, and the frames
show its progress; from then on there is a fault.  The tree is well-formed all the time. -/
inductive Follows (p : Patcher) (target : NodeId) : Option Progress → Prop where
  | running {q : Progress} (hfault : p.fault = none) (h : p.dom.WellFormed)
      (hshows : p.dom.Shows target p.frames q.opened q.done) : Follows p target (some q)
  | stopped (hfault : p.fault.isSome = true) (h : p.dom.WellFormed) : Follows p target none

/-- A document that a patch is in is well-formed, whatever the patch has come to. -/
theorem Follows.wellFormed {p : Patcher} {q : Option Progress} (h : p.Follows target q) :
    p.dom.WellFormed := by
  cases h with
  | running _ h _ => exact h
  | stopped _ h => exact h

theorem dom_trim (p : Patcher) (frame : Cursor) :
    (p.trim frame).dom = p.dom.cut frame.parent frame.next :=
  rfl

/-- After a fault nothing happens. -/
theorem replay_of_fault {p : Patcher} (hfault : p.fault.isSome = true) (i : Instruction) :
    i.replay p = p := by
  cases i with
  | openElement tag key attrs => exact if_pos hfault
  | closeElement tag => exact if_pos hfault
  | text content => exact if_pos hfault

theorem slots_size_le_openElement (p : Patcher) (tag key : String) (attrs : List Attribute) :
    p.dom.slots.size ≤ (openElement tag key attrs p).dom.slots.size := by
  unfold openElement
  split
  · exact Nat.le_refl _
  · split
    · exact Nat.le_refl _
    · next frame outer _ =>
      have hplace := slots_size_le_place p.dom p.summary frame tag key
      simpa only [slots_size_modifyElement] using hplace

theorem slots_size_le_text (p : Patcher) (content : String) :
    p.dom.slots.size ≤ (text content p).dom.slots.size := by
  unfold text
  split
  · exact Nat.le_refl _
  · split
    · exact Nat.le_refl _
    · dsimp only
      split
      · exact (slots_size_modify _ _ _).ge
      · exact (slots_size_le_alloc _ _).trans (slots_size_insertChild _ _ _ _).ge

theorem slots_size_closeElement (p : Patcher) (tag : String) :
    (closeElement tag p).dom.slots.size = p.dom.slots.size := by
  unfold closeElement
  split
  · rfl
  · split
    · split
      · rw [dom_trim]
        exact slots_size_cut _ _ _
      · rfl
    · rfl

/-- No slot is ever taken away. -/
theorem slots_size_le_replay (p : Patcher) (i : Instruction) :
    p.dom.slots.size ≤ (i.replay p).dom.slots.size := by
  cases i with
  | openElement tag key attrs => exact slots_size_le_openElement p tag key attrs
  | closeElement tag => exact (slots_size_closeElement p tag).ge
  | text content => exact slots_size_le_text p content

/-! ## One instruction -/

/-- The frames of a patch that runs are never all gone. -/
theorem exists_frame {p : Patcher} {opened : List OpenElement} {done : List LiveNode}
    (hshows : p.dom.Shows target p.frames opened done) :
    ∃ frame outer, p.frames = frame :: outer ∧
      p.dom.Shows target (frame :: outer) opened done := by
  generalize hframes : p.frames = frames at hshows
  cases hshows with
  | target helement hnext => exact ⟨_, _, rfl, .target helement hnext⟩
  | entered houter hchild hself hnext => exact ⟨_, _, rfl, .entered houter hchild hself hnext⟩

/-- To open an element is followed, whether a node is found, moved or made. -/
theorem follows_openElement {p : Patcher} {q : Progress} (hfault : p.fault = none)
    (h : p.dom.WellFormed) (hshows : p.dom.Shows target p.frames q.opened q.done)
    (tag key : String) (attrs : List Attribute)
    (hsize : (openElement tag key attrs p).dom.slots.size ≤ maxSlots) :
    (openElement tag key attrs p).Follows target (q.step (.openElement tag key attrs)) := by
  obtain ⟨frame, outer, hframes, hshows⟩ := exists_frame hshows
  obtain ⟨id, hplaced, hframes', hfault'⟩ :=
    openElement_spec h hfault hframes hshows.isLive hshows.next_le hsize
  obtain ⟨houter, hchild⟩ := hshows.placed h hplaced
  refine .running hfault' hplaced.wellFormed ?_
  rw [hframes']
  -- The element is entered before its first child, where nothing is done yet.
  exact .entered houter hchild hplaced.data_self (Nat.zero_le _)

/-- To put a text in place is followed. -/
theorem follows_text {p : Patcher} {q : Progress} (hfault : p.fault = none)
    (h : p.dom.WellFormed) (hshows : p.dom.Shows target p.frames q.opened q.done)
    (content : String) (hsize : (text content p).dom.slots.size ≤ maxSlots) :
    (text content p).Follows target (q.step (.text content)) := by
  obtain ⟨frame, outer, hframes, hshows⟩ := exists_frame hshows
  obtain ⟨id, hplaced, hframes', hfault'⟩ :=
    text_spec h hfault hframes hshows.isLive hshows.next_le hsize
  obtain ⟨hstay, hchild⟩ := hshows.placed h hplaced
  refine .running hfault' hplaced.wellFormed ?_
  rw [hframes']
  exact hstay.advance hchild (tree?_of_data? hplaced.wellFormed hplaced.data_self)

/-- To close an element is followed, and stops the patch if it closes another one. -/
theorem follows_closeElement {p : Patcher} {q : Progress} (hfault : p.fault = none)
    (h : p.dom.WellFormed) (hshows : p.dom.Shows target p.frames q.opened q.done)
    (tag : String) : (closeElement tag p).Follows target (q.step (.closeElement tag)) := by
  obtain ⟨opened, done⟩ := q
  simp only [closeElement, hfault, Option.isSome_none, Bool.false_eq_true, if_false]
  generalize hframes : p.frames = frames at hshows
  cases hshows with
  | target helement hnext => exact .stopped rfl h
  | @entered id parent next at' outer o opened houter hchild hself hnext =>
    have htag : p.dom.tag? id = some o.tag := by simp [tag?, element?, hself]
    by_cases heq : tag = o.tag
    · simp only [Progress.step, if_pos heq]
      rw [htag, if_pos (congrArg some heq.symm)]
      have hclosed := (Shows.entered houter hchild hself hnext).close h
      exact .running rfl (h.cut id next) hclosed
    · simp only [Progress.step, if_neg heq]
      rw [htag, if_neg fun h => heq (Option.some.inj h).symm]
      exact .stopped rfl h

/-- A close that the stream can continue with leaves the innermost frame and cuts off what is left
over there. -/
theorem Follows.exists_closed {p : Patcher} {q q' : Progress} (hp : p.Follows target (some q))
    {tag : String} (hp' : (closeElement tag p).Follows target (some q')) :
    ∃ frame outer, p.frames = frame :: outer ∧
      p.dom.Shows target (frame :: outer) q.opened q.done ∧
      closeElement tag p = { p with frames := outer }.trim frame := by
  cases hp with
  | running hfault h hshows =>
    cases hp' with
    | running hfault' _ _ =>
      obtain ⟨frame, outer, hframes, hshows⟩ := exists_frame hshows
      refine ⟨frame, outer, hframes, hshows, ?_⟩
      simp only [closeElement, hfault, hframes, Option.isSome_none, Bool.false_eq_true, if_false]
        at hfault' ⊢
      cases outer with
      | nil => cases hfault'
      | cons around rest =>
        dsimp only at hfault' ⊢
        split
        · rfl
        · next htag =>
          rw [if_neg htag] at hfault'
          cases hfault'

/-- An instruction that the stream can continue with keeps the invariant; any other one is an
unbalanced close and stops the patch. -/
theorem Follows.replay {p : Patcher} {q : Option Progress} (hp : p.Follows target q)
    (i : Instruction) (hsize : (i.replay p).dom.slots.size ≤ maxSlots) :
    (i.replay p).Follows target (q.bind fun q => q.step i) := by
  cases hp with
  | stopped hfault h =>
    rw [replay_of_fault hfault]
    exact .stopped hfault h
  | @running q hfault h hshows =>
    cases i with
    | openElement tag key attrs => exact follows_openElement hfault h hshows tag key attrs hsize
    | closeElement tag => exact follows_closeElement hfault h hshows tag
    | text content => exact follows_text hfault h hshows content hsize

/-! ## A whole stream -/

theorem slots_size_le_replayAll (p : Patcher) (stream : List Instruction) :
    p.dom.slots.size ≤ (Instruction.replayAll stream p).dom.slots.size := by
  induction stream generalizing p with
  | nil => exact Nat.le_refl _
  | cons i rest ih => exact (slots_size_le_replay p i).trans (ih (i.replay p))

/-- A patch keeps the invariant over a whole stream. -/
theorem Follows.replayAll {p : Patcher} {q : Option Progress} (hp : p.Follows target q)
    (stream : List Instruction)
    (hsize : (Instruction.replayAll stream p).dom.slots.size ≤ maxSlots) :
    (Instruction.replayAll stream p).Follows target (q.bind fun q => q.run stream) := by
  induction stream generalizing p q with
  | nil =>
    simp only [Progress.run_nil, Option.bind_fun_some]
    exact hp
  | cons i rest ih =>
    have hstep := hp.replay i ((slots_size_le_replayAll (i.replay p) rest).trans hsize)
    have hrest := ih hstep hsize
    rw [Option.bind_assoc] at hrest
    exact hrest

/-- A patch that starts below a live element shows nothing yet. -/
theorem follows_start {d : Dom} (h : d.WellFormed) (helement : d.isElement target = true) :
    Follows { dom := d, frames := [{ parent := target }] } target (some {}) :=
  .running rfl h (.target helement (Nat.zero_le _))

/-! ## The end -/

theorem slots_size_finish (p : Patcher) : p.finish.2.slots.size = p.dom.slots.size := by
  unfold finish
  split
  · rfl
  · exact slots_size_cut _ _ _
  · rfl
  · rfl

/-- The summary of a patch is no part of the tree. -/
theorem wellFormed_lastPatch {d : Dom} (h : d.WellFormed) (summary : PatchSummary) :
    { d with lastPatch := summary }.WellFormed :=
  h.of_links ⟨h.nodup, h.mem_iff⟩ (fun _ => rfl) (fun _ => rfl)

theorem forest_lastPatch {d : Dom} (h : d.WellFormed) (summary : PatchSummary) (id : NodeId) :
    { d with lastPatch := summary }.forest id = d.forest id :=
  forest_congr rfl fun _ _ =>
    tree?_congr h (wellFormed_lastPatch h summary) fun _ _ => ⟨rfl, rfl⟩

/-- However a patch ends, the tree is well-formed. -/
theorem Follows.wellFormed_finish {p : Patcher} {q : Option Progress} (hp : p.Follows target q) :
    p.finish.2.WellFormed := by
  have h := hp.wellFormed
  unfold finish
  split
  · exact wellFormed_lastPatch h _
  · exact wellFormed_lastPatch (h.cut _ _) _
  · exact wellFormed_lastPatch h _
  · exact wellFormed_lastPatch h _

/-- A patch that has read a whole balanced stream has only the frame of the target, and at its end
cuts off what is left there. -/
theorem Follows.finish_eq {p : Patcher} {done : List LiveNode}
    (hp : p.Follows target (some ⟨[], done⟩)) :
    ∃ next, p.frames = [⟨target, next⟩] ∧ p.dom.Shows target [⟨target, next⟩] [] done ∧
      p.finish = (.ok (), { p.dom.cut target next with
        lastPatch := (p.trim ⟨target, next⟩).summary }) := by
  obtain ⟨dom, frames, summary, fault⟩ := p
  cases hp with
  | running hfault h hshows =>
    cases hfault
    cases hshows with
    | target helement hnext => exact ⟨_, rfl, .target helement hnext, rfl⟩

/-- Such a patch ends without an error, and the target shows what the stream denotes. -/
theorem Follows.finish {p : Patcher} {done : List LiveNode}
    (hp : p.Follows target (some ⟨[], done⟩)) :
    p.finish.1 = .ok () ∧ p.finish.2.forest target = done := by
  have h := hp.wellFormed
  obtain ⟨next, -, hshows, hfinish⟩ := hp.finish_eq
  rw [hfinish]
  exact ⟨rfl, (forest_lastPatch (h.cut _ _) _ target).trans (hshows.cut h).2⟩

end Patcher

namespace Dom

/-! ## Patches -/

/-- Below a live element, a patch is a walk over the stream and its end. -/
theorem patch_of_isElement (d : Dom) {target : NodeId} (helement : d.isElement target = true)
    (stream : List Instruction) :
    d.patch target stream = (Instruction.replayAll stream
      ({ dom := d, frames := [{ parent := target }] } : Patcher)).finish := by
  simp only [patch, patchWith, requireElement_eq_ok_iff.mpr helement]

/-- A patch below a target when it has followed some instructions, before it ends. -/
def walk (d : Dom) (target : NodeId) (stream : List Instruction) : Patcher :=
  Instruction.replayAll stream { dom := d, frames := [{ parent := target }] }

/-- The instructions of a walk are followed one part after the other. -/
theorem walk_append (d : Dom) (target : NodeId) (first second : List Instruction) :
    d.walk target (first ++ second) = Instruction.replayAll second (d.walk target first) :=
  List.foldl_append

/-- A walk below a live element keeps the invariant. -/
theorem WellFormed.follows_walk {d : Dom} (h : d.WellFormed) {target : NodeId}
    (helement : d.isElement target = true) (stream : List Instruction)
    (hsize : (d.walk target stream).dom.slots.size ≤ maxSlots) :
    (d.walk target stream).Follows target (({} : Progress).run stream) :=
  (Patcher.follows_start h helement).replayAll stream hsize

/-- Below anything else, a patch changes nothing. -/
theorem patch_of_not_isElement (d : Dom) {target : NodeId} (helement : d.isElement target ≠ true)
    (stream : List Instruction) : (d.patch target stream).2 = d := by
  simp only [patch, patchWith]
  cases hrequire : d.requireElement target with
  | error e => rfl
  | ok _ => exact absurd (requireElement_eq_ok_iff.mp hrequire) helement

/-- Only below a live element does a patch succeed. -/
theorem isElement_of_patch_eq_ok {d : Dom} {target : NodeId} {stream : List Instruction}
    (hok : (d.patch target stream).1 = .ok ()) : d.isElement target = true := by
  by_contra helement
  unfold patch patchWith at hok
  cases hrequire : d.requireElement target with
  | error e =>
    rw [hrequire] at hok
    cases hok
  | ok _ => exact helement (requireElement_eq_ok_iff.mp hrequire)

/-- A patch takes no slot away. -/
theorem slots_size_le_patch (d : Dom) (target : NodeId) (stream : List Instruction) :
    d.slots.size ≤ (d.patch target stream).2.slots.size := by
  by_cases helement : d.isElement target = true
  · rw [patch_of_isElement d helement, Patcher.slots_size_finish]
    exact Patcher.slots_size_le_replayAll { dom := d, frames := [{ parent := target }] } stream
  · rw [patch_of_not_isElement d helement]

/-- A patch keeps the tree well-formed, whether it succeeds or fails. -/
theorem WellFormed.patch {d : Dom} (h : d.WellFormed) (target : NodeId)
    (stream : List Instruction) (hsize : (d.patch target stream).2.slots.size ≤ maxSlots) :
    (d.patch target stream).2.WellFormed := by
  by_cases helement : d.isElement target = true
  · rw [patch_of_isElement d helement] at hsize ⊢
    rw [Patcher.slots_size_finish] at hsize
    exact ((Patcher.follows_start h helement).replayAll stream hsize).wellFormed_finish
  · rw [patch_of_not_isElement d helement]
    exact h

/-- A patch that follows a balanced stream below a live element succeeds, and leaves there what the
stream denotes. -/
theorem WellFormed.forest_patch {d : Dom} (h : d.WellFormed) {target : NodeId}
    (helement : d.isElement target = true) {stream : List Instruction} {forest : List LiveNode}
    (hforest : Instruction.forest? stream = some forest)
    (hsize : (d.patch target stream).2.slots.size ≤ maxSlots) :
    (d.patch target stream).1 = .ok () ∧ (d.patch target stream).2.forest target = forest := by
  rw [patch_of_isElement d helement] at hsize ⊢
  rw [Patcher.slots_size_finish] at hsize
  have hfollows := (Patcher.follows_start h helement).replayAll stream hsize
  rw [Option.bind_some, Instruction.forest?_eq_some_iff.mp hforest] at hfollows
  exact hfollows.finish

end Dom
end LiveMarkup
