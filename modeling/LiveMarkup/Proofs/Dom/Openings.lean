import LiveMarkup.Proofs.Dom.Frontier
import LiveMarkup.Proofs.Dom.Heirs

/-!
# The elements that a patch opens

A patch gives a node to every element that it opens, and its openings tell which node was given to
which label in which frame.  The nodes that were entered lie before the cursors, so they stay where
they are, and none of them is given again.

Main definitions:

- `Opening`, `Patcher.openings`, `Dom.openings`: what a patch opens, in the order of the stream.
- `Opening.entered`, `Opening.given`: the nodes that were entered, and those that were given to a
  label in a frame.
- `Dom.Tracks`: what is known of these nodes while the patch runs.

Main results:

- `Dom.Tracks.text`, `Dom.Tracks.openElement`, `Dom.Tracks.cut`: the steps of a patch keep track.
- `Patcher.map_label_openings`: every element that the stream opens is there.
-/

namespace LiveMarkup

/-- The label of an element that is opened. -/
def Instruction.label? : Instruction → Option Label
  | .openElement tag key _ => some ⟨tag, some key⟩
  | _ => none

/-- An element that a patch opened: the node in whose frame it did so, the label that was asked for,
and the node that was given. -/
structure Opening where
  parent : NodeId
  label : Label
  node : NodeId
  deriving DecidableEq, Repr

namespace Opening

/-- The nodes whose frames a patch opens: the target and what was given. -/
def entered (target : NodeId) (os : List Opening) : List NodeId :=
  target :: os.map (·.node)

/-- The nodes that were given to a label in the frame of a node. -/
def given (os : List Opening) (parent : NodeId) (label : Label) : List NodeId :=
  (os.filter fun o => o.parent = parent ∧ o.label = label).map (·.node)

/-- The node of the last opening is entered last. -/
theorem entered_concat (target : NodeId) (os : List Opening) (o : Opening) :
    entered target (os ++ [o]) = entered target os ++ [o.node] := by
  simp [entered]

/-- The node of the last opening is given under its parent and label. -/
theorem given_concat_self (os : List Opening) (o : Opening) :
    given (os ++ [o]) o.parent o.label = given os o.parent o.label ++ [o.node] := by
  simp [given]

/-- The last opening gives nothing under other parents and labels. -/
theorem given_concat_other (os : List Opening) {o : Opening} {parent : NodeId} {label : Label}
    (h : o.parent = parent → o.label ≠ label) :
    given (os ++ [o]) parent label = given os parent label := by
  rw [given, List.filter_append, List.filter_singleton, decide_eq_false (fun ho => h ho.1 ho.2)]
  simp [given]

/-- In a frame that was not opened, nothing was given. -/
theorem given_eq_nil {os : List Opening} {parent : NodeId} (h : ∀ o ∈ os, o.parent ≠ parent)
    (label : Label) : given os parent label = [] := by
  rw [given, List.filter_eq_nil_iff.mpr, List.map_nil]
  intro o ho
  simp [h o ho]

end Opening

namespace Patcher

/-- What an instruction opens. -/
def opening? (p : Patcher) (i : Instruction) : Option Opening :=
  match p.fault, i.label?, p.frames, (i.replay p).frames with
  | none, some label, around :: _, inner :: _ =>
    some { parent := around.parent, label, node := inner.parent }
  | _, _, _, _ => none

/-- What instructions open, in their order. -/
def openings (p : Patcher) : List Instruction → List Opening
  | [] => []
  | i :: rest => (p.opening? i).toList ++ openings (i.replay p) rest

end Patcher

/-- What a patch opens below a target. -/
def Dom.openings (d : Dom) (target : NodeId) (stream : List Instruction) : List Opening :=
  Patcher.openings { dom := d, frames := [{ parent := target }] } stream

namespace Dom

variable {d₀ d d' : Dom} {target id : NodeId} {frame : Cursor} {outer : List Cursor}
  {os : List Opening} {data : LiveData} {opened : List OpenElement} {done : List LiveNode}

/-! ## The invariant -/

/-- What a patch passed are the target and what was given.  The nodes that were given have the
parents and labels of their openings. -/
structure Tracks (d₀ d : Dom) (target : NodeId) (frames : List Cursor) (os : List Opening) :
    Prop extends Passes d₀ d frames (Opening.entered target os) where
  parent_mem : ∀ o ∈ os, o.parent ∈ Opening.entered target os
  parent?_eq : ∀ o ∈ os, d.parent? o.node = some o.parent
  label?_eq : ∀ o ∈ os, d.label? o.node = some o.label

/-- A patch begins without openings. -/
theorem Tracks.start (h : d.WellFormed) (hlive : d.isLive target = true) :
    d.Tracks d target [{ parent := target }] [] where
  toPasses := .start h hlive
  parent_mem := by simp
  parent?_eq := by simp
  label?_eq := by simp

/-! ## Placing a node -/

section Placing

variable (ht : d₀.Tracks d target (frame :: outer) os) (hplaced : d.Placed d' frame id data)
  (h₀ : d₀.WellFormed) (h : d.WellFormed) (hfills : d.Fills d')
  (hlabels : ∀ x, d.isLive x = true → d'.label? x = d.label? x)
  (hshows : d.Shows target (frame :: outer) opened done)
include ht hplaced h₀ h hfills hlabels hshows

/-- When a text is placed, nothing is entered. -/
theorem Tracks.text : d₀.Tracks d' target ({ frame with next := frame.next + 1 } :: outer) os where
  toPasses := ht.toPasses.advance hplaced h₀ h hfills hlabels hshows
  parent_mem := ht.parent_mem
  parent?_eq := fun o ho => by
    have hparent := ht.parent?_eq o ho
    rw [hplaced.parent?_of_isLive h (isLive_of_parent? hparent), hparent]
  label?_eq := fun o ho => by
    rw [hlabels _ (isLive_of_parent? (ht.parent?_eq o ho)), ht.label?_eq o ho]

/-- When an element is opened, its node is entered. -/
theorem Tracks.openElement {label : Label} (hlabel : data.label? = some label) :
    d₀.Tracks d' target ({ parent := id } :: { frame with next := frame.next + 1 } :: outer)
      (os ++ [⟨frame.parent, label, id⟩]) := by
  have htext := ht.text hplaced h₀ h hfills hlabels hshows
  have hentered := Opening.entered_concat target os ⟨frame.parent, label, id⟩
  refine
    { toPasses := hentered ▸ ht.toPasses.enter hplaced h₀ h hfills hlabels hshows
      parent_mem := ?_
      parent?_eq := List.forall_mem_append.mpr ⟨htext.parent?_eq, ?_⟩
      label?_eq := List.forall_mem_append.mpr ⟨htext.label?_eq, ?_⟩ }
  · rw [hentered]
    refine List.forall_mem_append.mpr ⟨fun o ho => ?_, List.forall_mem_singleton.mpr ?_⟩
    · exact List.mem_append_left _ (ht.parent_mem o ho)
    · exact List.mem_append_left _ (ht.frame_mem frame List.mem_cons_self)
  · exact List.forall_mem_singleton.mpr hplaced.parent?_self
  · refine List.forall_mem_singleton.mpr ?_
    rw [label?, hplaced.data_self, Option.bind_some, hlabel]

end Placing

/-! ## Cutting off children -/

/-- When the innermost frame is closed, nothing that was entered is freed. -/
theorem Tracks.cut (ht : d₀.Tracks d target (frame :: outer) os) (h₀ : d₀.WellFormed)
    (h : d.WellFormed) (hshows : d.Shows target (frame :: outer) opened done) :
    d₀.Tracks (d.cut frame.parent frame.next) target outer os := by
  have hstay : ∀ o ∈ os, ¬ d.InCut frame.parent frame.next o.node := fun o ho =>
    ht.passed o.node (List.mem_cons_of_mem target (List.mem_map_of_mem ho)) frame
      List.mem_cons_self
  exact
    { toPasses := ht.toPasses.cut h₀ h hshows
      parent_mem := ht.parent_mem
      parent?_eq := fun o ho => by rw [parent?_cut h (hstay o ho), ht.parent?_eq o ho]
      label?_eq := fun o ho => by
        rw [label?_congr (data?_cut h (hstay o ho)), ht.label?_eq o ho] }

end Dom

/-! ## What is opened -/

namespace Patcher

variable {p : Patcher} {target id : NodeId}

/-- Only an instruction that opens an element opens one. -/
theorem opening?_eq_none {i : Instruction} (hlabel : i.label? = none) : p.opening? i = none := by
  unfold opening?
  rw [hlabel]
  split <;> simp_all

/-- The element that is opened stands in the innermost frame, and its own frame is innermost
then. -/
theorem opening?_openElement {frame : Cursor} {outer rest : List Cursor} {tag key : String}
    {attrs : List Attribute} (hfault : p.fault = none) (hframes : p.frames = frame :: outer)
    (hframes' : (openElement tag key attrs p).frames = { parent := id } :: rest) :
    p.opening? (.openElement tag key attrs) = some ⟨frame.parent, ⟨tag, some key⟩, id⟩ := by
  have hreplay : ((Instruction.openElement tag key attrs).replay p).frames =
      { parent := id } :: rest := hframes'
  rw [opening?, hfault, hframes, hreplay]
  rfl

/-- What an instruction opens has its label. -/
theorem Follows.map_label_opening? {q : Progress} (hp : p.Follows target (some q))
    (i : Instruction) (hsize : (i.replay p).dom.slots.size ≤ Dom.maxSlots) :
    (p.opening? i).map (·.label) = i.label? := by
  cases i with
  | openElement tag key attrs =>
    cases hp with
    | running hfault h hshows =>
      obtain ⟨frame, outer, hframes, hshows⟩ := exists_frame hshows
      obtain ⟨id, -, hframes', -⟩ :=
        openElement_spec h hfault hframes hshows.isLive hshows.next_le hsize
      rw [opening?_openElement hfault hframes hframes']
      rfl
  | closeElement tag => rw [opening?_eq_none rfl]; rfl
  | text content => rw [opening?_eq_none rfl]; rfl

/-- Every element that the stream opens is there, in the order of the stream. -/
theorem map_label_openings {q q' : Progress} {stream : List Instruction}
    (hp : p.Follows target (some q)) (hrun : q.run stream = some q')
    (hsize : (Instruction.replayAll stream p).dom.slots.size ≤ Dom.maxSlots) :
    (p.openings stream).map (·.label) = stream.filterMap Instruction.label? := by
  induction stream generalizing p q with
  | nil => rfl
  | cons i rest ih =>
    have hstep := (slots_size_le_replayAll (i.replay p) rest).trans hsize
    obtain ⟨next, hnext, hrest⟩ := Option.bind_eq_some_iff.mp hrun
    have hp' := hp.replay i hstep
    rw [Option.bind_some, hnext] at hp'
    have hfirst := hp.map_label_opening? i hstep
    rw [openings, List.map_append, ih hp' hrest hsize]
    cases hopened : p.opening? i with
    | none =>
      rw [hopened, Option.map_none] at hfirst
      rw [List.filterMap_cons_none hfirst.symm]
      rfl
    | some o =>
      rw [hopened, Option.map_some] at hfirst
      rw [List.filterMap_cons_some hfirst.symm]
      rfl

end Patcher
end LiveMarkup
