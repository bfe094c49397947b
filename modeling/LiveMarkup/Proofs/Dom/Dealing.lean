import LiveMarkup.Proofs.Dom.Openings
import LiveMarkup.Proofs.Dom.Reachable

/-!
# How former children are dealt out

In every frame that a patch opens, the former children with a label are dealt out in their order to
the elements that are opened there with this label.  When they run out, new nodes are made; when the
frame is closed, those that are left are freed with all that lies below them.

Main definitions:

- `Dom.childrenWith`: the children of a node with a label.
- `Dom.Dealt`: what was dealt out so far, and what is left.
- `Dom.Deals`: the invariant of a patch.

Main results:

- `Dom.Dealt.spec`: how many were dealt out.
- `Dom.Deals.text`, `Dom.Deals.openElement`, `Dom.Deals.cut`: the steps of a patch.
- `Patcher.deals_replayAll`: a whole stream.
- `Dom.Reachable.patch_deals_out`: what a patch takes over, makes and frees.
-/

namespace LiveMarkup
namespace Dom

variable {d₀ d d' : Dom} {target id : NodeId} {frame : Cursor} {frames outer : List Cursor}
  {os : List Opening} {data : LiveData} {opened : List OpenElement} {done : List LiveNode}

/-- The children of a node with a label. -/
def childrenWith (d : Dom) (label : Label) (parent : NodeId) : List NodeId :=
  (d.children parent).filter fun c => d.label? c = some label

/-- In a frame that was just opened, all children with a label wait. -/
theorem waiting_start (d : Dom) (label : Label) (parent : NodeId) :
    d.waiting (· == label) { parent } = d.childrenWith label parent := by
  refine List.filter_congr fun c _ => ?_
  rw [Bool.eq_iff_iff]
  cases d.label? c <;> simp

/-! ## Dealing out -/

/-- Of the nodes `old`, those at the front were given, and the others are left.  What was given
beyond them is new, and none is new as long as some are left. -/
def Dealt (d₀ : Dom) (old given left : List NodeId) : Prop :=
  ∃ taken made, old = taken ++ left ∧ given = taken ++ made ∧ (left = [] ∨ made = []) ∧
    ∀ x ∈ made, d₀.isLive x = false

namespace Dealt

variable {old given left : List NodeId} {x : NodeId}

theorem start (d₀ : Dom) (old : List NodeId) : d₀.Dealt old [] old :=
  ⟨[], [], rfl, rfl, Or.inr rfl, by simp⟩

/-- The first that is left may be given. -/
theorem take (hd : d₀.Dealt old given (x :: left)) : d₀.Dealt old (given ++ [x]) left := by
  obtain ⟨taken, made, rfl, rfl, hnone, -⟩ := hd
  obtain rfl := hnone.resolve_left (List.cons_ne_nil x left)
  exact ⟨taken ++ [x], [], by simp, by simp, Or.inr rfl, by simp⟩

/-- If none is left, a new one may be given. -/
theorem make (hd : d₀.Dealt old given []) (hx : d₀.isLive x = false) :
    d₀.Dealt old (given ++ [x]) [] := by
  obtain ⟨taken, made, rfl, rfl, -, hdead⟩ := hd
  refine ⟨taken, made ++ [x], rfl, List.append_assoc _ _ _, Or.inl rfl, ?_⟩
  exact List.forall_mem_append.mpr ⟨hdead, List.forall_mem_singleton.mpr hx⟩

theorem mem_old (hd : d₀.Dealt old given left) (hx : x ∈ left) : x ∈ old := by
  obtain ⟨taken, made, rfl, -, -, -⟩ := hd
  exact List.mem_append_right taken hx

/-- As many are given as there are, or as are asked for. -/
theorem spec (hd : d₀.Dealt old given left) :
    given.take (min old.length given.length) = old.take (min old.length given.length) ∧
      (∀ x ∈ given.drop (min old.length given.length), d₀.isLive x = false) ∧
      old.drop (min old.length given.length) = left := by
  obtain ⟨taken, made, rfl, rfl, hnone, hdead⟩ := hd
  have hlength : min (taken ++ left).length (taken ++ made).length = taken.length := by
    rcases hnone with rfl | rfl <;> simp
  rw [hlength, List.take_left, List.take_left, List.drop_left, List.drop_left]
  exact ⟨rfl, hdead, rfl⟩

end Dealt

/-! ## The invariant -/

/-- In the frames that are open, former children are dealt out, and what is left of them waits.  In
those that were closed, what was left is freed. -/
structure Deals (d₀ d : Dom) (target : NodeId) (frames : List Cursor) (os : List Opening) :
    Prop extends Tracks d₀ d target frames os where
  opened : ∀ frame ∈ frames, ∀ label, d₀.Dealt (d₀.childrenWith label frame.parent)
    (Opening.given os frame.parent label) (d.waiting (· == label) frame)
  closed : ∀ x ∈ Opening.entered target os, (∀ frame ∈ frames, frame.parent ≠ x) → ∀ label,
    ∃ left, d₀.Dealt (d₀.childrenWith label x) (Opening.given os x label) left ∧
      ∀ c ∈ left, ∀ y, d₀.Below c y → d.isLive y = false

theorem Deals.start (h : d.WellFormed) (hlive : d.isLive target = true) :
    d.Deals d target [{ parent := target }] [] where
  toTracks := .start h hlive
  opened := by
    refine List.forall_mem_singleton.mpr fun label => ?_
    rw [waiting_start]
    exact .start d _
  closed := by
    intro x hx hnot
    exact absurd (List.mem_singleton.mp hx).symm (hnot _ List.mem_cons_self)

/-! ## Placing a node -/

section Placing

variable (hd : d₀.Deals d target (frame :: outer) os) (h₀ : d₀.WellFormed) (h : d.WellFormed)
  (hplaced : d.Placed d' frame id data) (hfills : d.Fills d')
  (hlabels : ∀ x, d.isLive x = true → d'.label? x = d.label? x)
  (hshows : d.Shows target (frame :: outer) opened done)

include hd h₀ hfills in
/-- What was freed when a frame was closed stays dead. -/
theorem Deals.closed_placed {x : NodeId} (hx : x ∈ Opening.entered target os)
    (hnot : ∀ g ∈ frame :: outer, g.parent ≠ x) (label : Label) :
    ∃ left, d₀.Dealt (d₀.childrenWith label x) (Opening.given os x label) left ∧
      ∀ c ∈ left, ∀ y, d₀.Below c y → d'.isLive y = false := by
  obtain ⟨left, hdealt, hfreed⟩ := hd.closed x hx hnot label
  refine ⟨left, hdealt, fun c hc y hy => ?_⟩
  have hlive₀ := hy.isLive (h₀.isLive_child (List.mem_of_mem_filter (hdealt.mem_old hc)))
  rw [← Bool.not_eq_true]
  intro hlive
  rw [hd.continues.not_isLive_of_new hfills (hfreed c hc y hy) hlive] at hlive₀
  cases hlive₀

include hd h hplaced hlabels hshows in
/-- In the frames further out, the same is left. -/
theorem Deals.opened_outer {g : Cursor} (hg : g ∈ outer) (label : Label) :
    d₀.Dealt (d₀.childrenWith label g.parent) (Opening.given os g.parent label)
      (d'.waiting (· == label) g) := by
  rw [hplaced.waiting_outer h hlabels (hshows.exists_child h g hg)]
  exact hd.opened g (List.mem_cons_of_mem frame hg) label

include hd h hplaced hlabels hshows in
/-- In the frame itself, the same is left of other labels. -/
theorem Deals.opened_next {label : Label} (hother : d'.label? id ≠ some label) :
    d₀.Dealt (d₀.childrenWith label frame.parent) (Opening.given os frame.parent label)
      (d'.waiting (· == label) { frame with next := frame.next + 1 }) := by
  have hany : (d'.label? id).any (· == label) = false := by
    cases hown : d'.label? id with
    | none => rfl
    | some own => simpa [hown] using hother
  rw [hplaced.waiting_next h hlabels hshows.next_le, erase_waiting h hlabels hany]
  exact hd.opened frame List.mem_cons_self label

include hd h₀ h hplaced hfills hlabels hshows

/-- A text is dealt out to no label. -/
theorem Deals.text (hnone : data.label? = none) :
    d₀.Deals d' target ({ frame with next := frame.next + 1 } :: outer) os where
  toTracks := hd.toTracks.text hplaced h₀ h hfills hlabels hshows
  opened := by
    have hlabel : d'.label? id = none := by
      rw [label?, hplaced.data_self, Option.bind_some, hnone]
    refine List.forall_mem_cons.mpr ⟨fun label => ?_, fun g hg label => ?_⟩
    · exact hd.opened_next h hplaced hlabels hshows (by simp [hlabel])
    · exact hd.opened_outer h hplaced hlabels hshows hg label
  closed := fun x hx hnot label =>
    hd.closed_placed h₀ hfills hx
      (List.forall_mem_cons.mpr (List.forall_mem_cons.mp hnot)) label

/-- In a frame that is just opened, nothing is given, and all former children wait. -/
theorem Deals.opened_entered {label' : Label} (label : Label) :
    d₀.Dealt (d₀.childrenWith label id)
      (Opening.given (os ++ [⟨frame.parent, label', id⟩]) id label)
      (d'.waiting (· == label) { parent := id }) := by
  have hnew := hd.not_mem hplaced
  have hparents : ∀ o ∈ os ++ [⟨frame.parent, label', id⟩], o.parent ≠ id := by
    refine List.forall_mem_append.mpr ⟨?_, List.forall_mem_singleton.mpr ?_⟩
    · rintro o ho rfl
      exact hnew (hd.parent_mem o ho)
    · rintro heq
      exact hnew (heq ▸ hd.frame_mem frame List.mem_cons_self)
  obtain ⟨used, haw⟩ := hd.awaits
  have hchildren := (haw frame List.mem_cons_self).below_placed h₀ h hd.continues hplaced hfills
    hshows.isLive (Below.refl d₀ id)
  have hcontinues := hd.continues.placed h hplaced hfills hlabels
  have hsame : d'.childrenWith label id = d₀.childrenWith label id := by
    rw [childrenWith, childrenWith, ← hchildren]
    refine List.filter_congr fun c hc => ?_
    have hlive₀ := h₀.isLive_child (hchildren ▸ hc)
    rw [hcontinues.label?_eq c hlive₀ (hplaced.wellFormed.isLive_child hc)]
  rw [Opening.given_eq_nil hparents, waiting_start, hsame]
  exact .start d₀ _

/-- An element that is opened is given the first that is left, or else a new node. -/
theorem Deals.openElement {label : Label} (hlabel : data.label? = some label)
    (hfirst : ∀ c rest, d.waiting (· == label) frame = c :: rest → id = c) :
    d₀.Deals d' target ({ parent := id } :: { frame with next := frame.next + 1 } :: outer)
      (os ++ [⟨frame.parent, label, id⟩]) where
  toTracks := hd.toTracks.openElement hplaced h₀ h hfills hlabels hshows hlabel
  opened := by
    have hown : d'.label? id = some label := by
      rw [label?, hplaced.data_self, Option.bind_some, hlabel]
    refine List.forall_mem_cons.mpr
      ⟨hd.opened_entered h₀ h hplaced hfills hlabels hshows,
        List.forall_mem_cons.mpr ⟨fun other => ?_, fun g hg other => ?_⟩⟩
    · by_cases heq : label = other
      · subst heq
        have hdealt := hd.opened frame List.mem_cons_self label
        rw [Opening.given_concat_self (o := ⟨frame.parent, label, id⟩),
          hplaced.waiting_next h hlabels hshows.next_le]
        cases hwaiting : d.waiting (· == label) frame with
        | cons c rest =>
          obtain rfl := hfirst c rest hwaiting
          rw [hwaiting] at hdealt
          rw [List.erase_cons_head]
          exact hdealt.take
        | nil =>
          rw [hwaiting] at hdealt
          refine hdealt.make ?_
          rcases hplaced.origin with hdrop | hdead
          · -- A former child would have been waiting.
            have hlive := h.isLive_child (List.mem_of_mem_drop hdrop)
            have hmem : id ∈ d.waiting (· == label) frame :=
              mem_waiting.mpr ⟨hdrop, by simp [← hlabels id hlive, hown]⟩
            rw [hwaiting] at hmem
            cases hmem
          · exact hd.continues.not_isLive_of_new hfills hdead
              (isLive_of_parent? hplaced.parent?_self)
      · rw [Opening.given_concat_other os fun _ => heq]
        exact hd.opened_next h hplaced hlabels hshows (by simpa [hown] using heq)
    · have hne := (not_inCut_outer h (hshows.exists_child h g hg)).1
      rw [Opening.given_concat_other os fun heq => absurd heq.symm hne]
      exact hd.opened_outer h hplaced hlabels hshows hg other
  closed := by
    intro x hx hnot other
    obtain ⟨hid, hnext, houter⟩ := by simpa only [List.forall_mem_cons] using hnot
    rw [Opening.entered_concat, List.mem_append, List.mem_singleton] at hx
    have hold := hx.resolve_right (Ne.symm hid)
    rw [Opening.given_concat_other os fun heq => absurd heq hnext]
    exact hd.closed_placed h₀ hfills hold (List.forall_mem_cons.mpr ⟨hnext, houter⟩) other

end Placing

/-! ## Cutting off children -/

/-- When the innermost frame is closed, what is left in it is freed with all that lies below. -/
theorem Deals.cut (hd : d₀.Deals d target (frame :: outer) os) (h₀ : d₀.WellFormed)
    (h : d.WellFormed) (hshows : d.Shows target (frame :: outer) opened done) :
    d₀.Deals (d.cut frame.parent frame.next) target outer os where
  toTracks := hd.toTracks.cut h₀ h hshows
  opened := by
    intro g hg label
    rw [waiting_cut_outer h (hshows.exists_child h g hg)]
    exact hd.opened g (List.mem_cons_of_mem frame hg) label
  closed := by
    intro x hx hnot label
    by_cases hframe : frame.parent = x
    · subst hframe
      obtain ⟨used, haw⟩ := hd.awaits
      refine ⟨_, hd.opened frame List.mem_cons_self label, fun c hc y hy => ?_⟩
      have hdrop := (mem_waiting.mp hc).1
      have hbelow := ((haw frame List.mem_cons_self).below_iff h₀ h hdrop).mpr hy
      rw [← Bool.not_eq_true]
      exact fun hlive => not_inCut_of_isLive h hlive ⟨c, hdrop, hbelow⟩
    · obtain ⟨left, hdealt, hfreed⟩ :=
        hd.closed x hx (List.forall_mem_cons.mpr ⟨hframe, hnot⟩) label
      refine ⟨left, hdealt, fun c hc y hy => ?_⟩
      rw [← Bool.not_eq_true]
      intro hlive
      have hlive := (frees_cut d frame.parent frame.next).isLive hlive
      rw [hfreed c hc y hy] at hlive
      cases hlive

end Dom

/-! ## A whole stream -/

namespace Patcher

open Dom

variable {d₀ : Dom} {p : Patcher} {q q' : Progress} {target : NodeId} {os : List Opening}

theorem deals_openElement (h₀ : d₀.WellFormed) (hp : p.Follows target (some q))
    (hd : d₀.Deals p.dom target p.frames os) {tag key : String} {attrs : List Attribute}
    (hsize : (openElement tag key attrs p).dom.slots.size ≤ maxSlots) :
    d₀.Deals (openElement tag key attrs p).dom target (openElement tag key attrs p).frames
      (os ++ (p.opening? (.openElement tag key attrs)).toList) := by
  cases hp with
  | running hfault h hshows =>
    obtain ⟨frame, outer, hframes, hshows⟩ := exists_frame hshows
    obtain ⟨id, hplaced, hframes', -⟩ :=
      openElement_spec h hfault hframes hshows.isLive hshows.next_le hsize
    have hfirst : ∀ c rest, p.dom.waiting (· == ⟨tag, some key⟩) frame = c :: rest → id = c := by
      intro c rest hwaiting
      rw [eq_place_of_frames hfault hframes hframes', place_fst, hwaiting]
      rfl
    rw [hframes] at hd
    rw [hframes', opening?_openElement hfault hframes hframes', Option.toList_some]
    exact hd.openElement h₀ h hplaced (fills_openElement tag key attrs p)
      (fun _ => label?_openElement h.toFreeExact hsize) hshows rfl hfirst

theorem deals_text (h₀ : d₀.WellFormed) (hp : p.Follows target (some q))
    (hd : d₀.Deals p.dom target p.frames os) {content : String}
    (hsize : (text content p).dom.slots.size ≤ maxSlots) :
    d₀.Deals (text content p).dom target (text content p).frames os := by
  cases hp with
  | running hfault h hshows =>
    obtain ⟨frame, outer, hframes, hshows⟩ := exists_frame hshows
    obtain ⟨id, hplaced, hframes', -⟩ :=
      text_spec h hfault hframes hshows.isLive hshows.next_le hsize
    rw [hframes] at hd
    rw [hframes']
    exact hd.text h₀ h hplaced (fills_text content p)
      (fun _ => label?_text h.toFreeExact hsize) hshows rfl

theorem deals_closeElement (h₀ : d₀.WellFormed) (hp : p.Follows target (some q))
    (hd : d₀.Deals p.dom target p.frames os) {tag : String}
    (hp' : (closeElement tag p).Follows target (some q')) :
    d₀.Deals (closeElement tag p).dom target (closeElement tag p).frames os := by
  obtain ⟨frame, outer, hframes, hshows, hclosed⟩ := hp.exists_closed hp'
  rw [hframes] at hd
  rw [hclosed]
  exact hd.cut h₀ hp.wellFormed hshows

/-- What was dealt out before a stream and what is dealt out by it are dealt out together.  The
frames that the stream closes may have been opened before it, so all openings so far are told. -/
theorem deals_replayAll (h₀ : d₀.WellFormed) {stream : List Instruction}
    (hp : p.Follows target (some q)) (hd : d₀.Deals p.dom target p.frames os)
    (hrun : q.run stream = some q')
    (hsize : (Instruction.replayAll stream p).dom.slots.size ≤ maxSlots) :
    d₀.Deals (Instruction.replayAll stream p).dom target (Instruction.replayAll stream p).frames
      (os ++ p.openings stream) := by
  induction stream generalizing p q os with
  | nil =>
    rw [openings, List.append_nil]
    exact hd
  | cons i rest ih =>
    have hstep := (slots_size_le_replayAll (i.replay p) rest).trans hsize
    obtain ⟨next, hnext, hrest⟩ := Option.bind_eq_some_iff.mp hrun
    have hp' := hp.replay i hstep
    rw [Option.bind_some, hnext] at hp'
    rw [openings, ← List.append_assoc]
    refine ih hp' ?_ hrest hsize
    cases i with
    | openElement tag key attrs => exact deals_openElement h₀ hp hd hstep
    | closeElement tag =>
      rw [opening?_eq_none rfl, Option.toList_none, List.append_nil]
      exact deals_closeElement h₀ hp hd hp'
    | text content =>
      rw [opening?_eq_none rfl, Option.toList_none, List.append_nil]
      exact deals_text h₀ hp hd hstep

end Patcher

/-! ## A patch -/

namespace Dom

variable {d₀ d : Dom} {target : NodeId} {os : List Opening} {stream : List Instruction}

/-- What a patch counts makes no difference. -/
theorem Deals.lastPatch (hd : d₀.Deals d target [] os) (summary : PatchSummary) :
    d₀.Deals { d with lastPatch := summary } target [] os where
  toPasses := hd.toPasses.lastPatch summary
  parent_mem := hd.parent_mem
  parent?_eq := hd.parent?_eq
  label?_eq := hd.label?_eq
  opened := by simp
  closed := hd.closed

/-- When a patch has followed a balanced stream, all its frames are closed. -/
theorem WellFormed.deals_patch (h : d.WellFormed) (helement : d.isElement target = true)
    {forest : List LiveNode} (hforest : Instruction.forest? stream = some forest)
    (hsize : (d.patch target stream).2.slots.size ≤ maxSlots) :
    d.Deals (d.patch target stream).2 target [] (d.openings target stream) := by
  rw [patch_of_isElement d helement] at hsize ⊢
  rw [Patcher.slots_size_finish] at hsize
  have hrun := Instruction.forest?_eq_some_iff.mp hforest
  have hstart := Patcher.follows_start h helement
  have hfollows := hstart.replayAll stream hsize
  have hd := Patcher.deals_replayAll h hstart (.start h (isLive_of_isElement helement)) hrun hsize
  rw [Option.bind_some, hrun] at hfollows
  obtain ⟨next, hframes, hshows, hfinish⟩ := hfollows.finish_eq
  rw [hframes, List.nil_append] at hd
  rw [hfinish]
  exact (hd.cut h hfollows.wellFormed hshows).lastPatch _

/-- A balanced stream is followed below a live element of a reachable tree.  Every element that the
stream opens is given another node, which in the end is a child with the label that was asked for,
of the node in whose frame it was opened; if it was live before, it was that already.

In every frame that is opened, that of the target or of a node that was given, let some former
children have a label, and let some elements be opened there with that label.  As many of these as
possible, from the first one on, are given those children in their order.  To the others new nodes
are given, and what is left of the children is freed with all that lay below. -/
theorem Reachable.patch_deals_out (h : d.Reachable) (helement : d.isElement target = true)
    (hbalanced : Instruction.Balanced stream)
    (hsize : (d.patch target stream).2.slots.size ≤ maxSlots) :
    let d' := (d.patch target stream).2
    let os := d.openings target stream
    os.map (·.label) = stream.filterMap Instruction.label? ∧
      (os.map (·.node)).Nodup ∧
      (∀ o ∈ os, o.parent ∈ Opening.entered target os ∧
        d'.parent? o.node = some o.parent ∧ d'.label? o.node = some o.label ∧
        (d.isLive o.node = true →
          d.parent? o.node = some o.parent ∧ d.label? o.node = some o.label)) ∧
      ∀ parent ∈ Opening.entered target os, ∀ label,
        let old := d.childrenWith label parent
        let given := Opening.given os parent label
        let reused := min old.length given.length
        given.take reused = old.take reused ∧
          (∀ x ∈ given.drop reused, d.isLive x = false ∧ d'.isLive x = true) ∧
          ∀ x ∈ old.drop reused, ∀ y, d.Below x y → d'.isLive y = false := by
  intro d' os
  have hwf := h.wellFormed ((slots_size_le_patch d target stream).trans hsize)
  obtain ⟨forest, hforest⟩ := Instruction.balanced_iff.mp hbalanced
  have hd : d.Deals d' target [] os := hwf.deals_patch helement hforest hsize
  refine ⟨?_, (List.nodup_cons.mp hd.nodup).2, fun o ho => ?_, ?_⟩
  · refine Patcher.map_label_openings (Patcher.follows_start hwf helement)
      (Instruction.forest?_eq_some_iff.mp hforest) ?_
    rwa [patch_of_isElement d helement, Patcher.slots_size_finish] at hsize
  · have hparent := hd.parent?_eq o ho
    have hlabel := hd.label?_eq o ho
    refine ⟨hd.parent_mem o ho, hparent, hlabel, fun hlive => ?_⟩
    have hlive' := isLive_of_parent? hparent
    rw [← hd.continues.parent?_eq _ hlive hlive', ← hd.continues.label?_eq _ hlive hlive']
    exact ⟨hparent, hlabel⟩
  · intro parent hparent label old given reused
    obtain ⟨left, hdealt, hfreed⟩ := hd.closed parent hparent (by simp) label
    obtain ⟨htaken, hmade, hleft⟩ := hdealt.spec
    refine ⟨htaken, fun x hx => ⟨hmade x hx, ?_⟩, hleft ▸ hfreed⟩
    obtain ⟨o, ho, rfl⟩ := List.mem_map.mp (List.mem_of_mem_drop hx)
    exact isLive_of_parent? (hd.parent?_eq o (List.mem_of_mem_filter ho))

/-- Of three items with one key the first two are taken over, the first of them behind an element
that stood after it, and the third is freed with its text.  In the first item, an element is opened
twice: the first time the former one is given, the second time a new one. -/
theorem Reachable.patch_deals_out_items :
    let d := [Operation.createElement "ul",
      .patch ⟨0, 0⟩ [.text "a", .openElement "li" "k" [], .openElement "b" "n" [], .text "1",
        .closeElement "b", .closeElement "li", .openElement "li" "k" [], .text "2",
        .closeElement "li", .openElement "i" "z" [], .closeElement "i",
        .openElement "li" "k" [], .text "3", .closeElement "li"]].foldl Dom.perform {}
    let stream := [Instruction.openElement "i" "z" [], .closeElement "i",
      .openElement "li" "k" [], .openElement "b" "n" [], .closeElement "b", .text "-",
      .openElement "b" "n" [], .closeElement "b", .closeElement "li", .text "t",
      .openElement "li" "k" [], .closeElement "li"]
    let d' := (d.patch ⟨0, 0⟩ stream).2
    let os := d.openings ⟨0, 0⟩ stream
    d.childrenWith ⟨"li", some "k"⟩ ⟨0, 0⟩ = [⟨2, 0⟩, ⟨5, 0⟩, ⟨8, 0⟩] ∧
      Opening.given os ⟨0, 0⟩ ⟨"li", some "k"⟩ = [⟨2, 0⟩, ⟨5, 0⟩] ∧
      (∀ y, d.Below ⟨8, 0⟩ y → d'.isLive y = false) ∧
      d.childrenWith ⟨"b", some "n"⟩ ⟨2, 0⟩ = [⟨3, 0⟩] ∧
      Opening.given os ⟨2, 0⟩ ⟨"b", some "n"⟩ = [⟨3, 0⟩, ⟨10, 0⟩] ∧
      d.isLive ⟨10, 0⟩ = false ∧ d'.isLive ⟨10, 0⟩ = true := by
  intro d stream d' os
  have helement : d.isElement ⟨0, 0⟩ = true := by decide +kernel
  have hbalanced : Instruction.Balanced stream := by decide
  have hsize : (d.patch ⟨0, 0⟩ stream).2.slots.size ≤ maxSlots := by decide +kernel
  have hreachable : d.Reachable := Reachable.empty.foldl_perform _
  obtain ⟨-, -, -, hdealt⟩ := hreachable.patch_deals_out helement hbalanced hsize
  obtain ⟨-, -, hfreed⟩ := hdealt ⟨0, 0⟩ List.mem_cons_self ⟨"li", some "k"⟩
  obtain ⟨-, hmade, -⟩ := hdealt ⟨2, 0⟩ (by decide +kernel) ⟨"b", some "n"⟩
  exact ⟨by decide +kernel, by decide +kernel, hfreed ⟨8, 0⟩ (by decide +kernel),
    by decide +kernel, by decide +kernel, hmade ⟨10, 0⟩ (by decide +kernel)⟩

end Dom
end LiveMarkup
