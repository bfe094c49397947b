import LiveMarkup.Proofs.Dom.Faults
import LiveMarkup.Proofs.Dom.Freed
import LiveMarkup.Proofs.Dom.Frontier
import LiveMarkup.Proofs.Dom.Leaves
import LiveMarkup.Proofs.Dom.Placements

/-!
# The accounts of a patch

While a patch runs, every node inside its target was placed or still lies behind a cursor, and no
node is placed twice.  What lies behind a cursor when its frame is closed is freed, and the children
of that frame among it are counted as removed.  So in the end the summary accounts for every node.

Main definitions:

- `Dom.Accounts`: the invariant of a patch.

Main results:

- `Dom.Accounts.place`, `Dom.Accounts.tail`, `Dom.Accounts.cut`: the steps of a patch.
- `Dom.Accounts.inside_iff`, `Dom.Accounts.mem_freed_iff`, `Dom.Accounts.encard_created`: the nodes
  inside the target, those that are freed and those that are new, when all frames are closed.
- `Patcher.accounts_replayAll`: a whole stream.
- `Dom.Reachable.patch_accounts`: what the summary of a patch says.
-/

namespace LiveMarkup
namespace Dom

variable {d₀ d d' : Dom} {target id x : NodeId} {frame : Cursor} {frames outer : List Cursor}
  {data : LiveData} {opened : List OpenElement} {done : List LiveNode}
  {summary : PatchSummary} {ps : List Placement}

/-! ## The invariant -/

/-- What a patch passed are the target and what it placed.  Each node inside the target was placed
or lies behind a cursor, and each that was not there before was placed.  A node that was counted as
created was not there before, and one that was counted otherwise was inside the target.  As many
subtrees were freed as were counted as removed. -/
structure Accounts (d₀ d : Dom) (target : NodeId) (frames : List Cursor) (summary : PatchSummary)
    (ps : List Placement) : Prop extends Passes d₀ d frames (target :: ps.map (·.node)) where
  parent_mem : ∀ q ∈ ps, ∃ p ∈ target :: ps.map (·.node), d.parent? q.node = some p
  covered : ∀ x, d.Inside target x → x ∈ ps.map (·.node) ∨
    ∃ frame ∈ frames, d.InCut frame.parent frame.next x
  fresh : ∀ x, d₀.isLive x = false → d.isLive x = true → x ∈ ps.map (·.node)
  origin : ∀ q ∈ ps,
    if q.counter = .created then d₀.isLive q.node = false else d₀.Inside target q.node
  counts : ∀ c, ps.countP (·.counter = c) = summary.count c
  removed : (d₀.freedRoots d).encard = summary.removed

namespace Accounts

theorem start (h : d.WellFormed) (hlive : d.isLive target = true) :
    d.Accounts d target [{ parent := target }] {} [] where
  toPasses := .start h hlive
  parent_mem := by simp
  covered := by
    rintro x ⟨hbelow, hne⟩
    obtain ⟨c, hc, hbelow⟩ := hbelow.eq_or_child.resolve_left hne
    exact Or.inr ⟨_, List.mem_cons_self, c, h.mem_of_parent hc, hbelow⟩
  fresh := by
    intro x hdead hlive
    rw [hlive] at hdead
    cases hdead
  origin := by simp
  counts := fun c => by cases c <;> rfl
  removed := by
    rw [freedRoots_self, Set.encard_empty]
    rfl

theorem isLive_target (ha : d₀.Accounts d target frames summary ps) : d.isLive target = true :=
  ha.isLive target List.mem_cons_self

/-- What was passed and was there before was the target or inside it. -/
theorem below_of_mem (ha : d₀.Accounts d target frames summary ps)
    (hx : x ∈ target :: ps.map (·.node)) (hlive : d₀.isLive x = true) : d₀.Below target x := by
  rcases List.mem_cons.mp hx with rfl | hx
  · exact Below.refl d₀ x
  · obtain ⟨q, hq, rfl⟩ := List.mem_map.mp hx
    have horigin := ha.origin q hq
    split at horigin
    · rw [hlive] at horigin
      cases horigin
    · exact horigin.1

/-- A frame with nothing behind its cursor may be left. -/
theorem tail (ha : d₀.Accounts d target (frame :: outer) summary ps)
    (hnone : ∀ x, ¬ d.InCut frame.parent frame.next x) :
    d₀.Accounts d target outer summary ps where
  toPasses := ha.toPasses.tail
  parent_mem := ha.parent_mem
  covered := by
    intro x hx
    refine (ha.covered x hx).imp_right ?_
    rintro ⟨g, hg, hcut⟩
    rcases List.mem_cons.mp hg with rfl | hg
    · exact absurd hcut (hnone x)
    · exact ⟨g, hg, hcut⟩
  fresh := ha.fresh
  origin := ha.origin
  counts := ha.counts
  removed := ha.removed

/-! ## Placing a node -/

section Placing

variable (ha : d₀.Accounts d target (frame :: outer) summary ps)
  (hplaced : d.Placed d' frame id data) (h₀ : d₀.WellFormed) (h : d.WellFormed)
include ha hplaced h₀ h

/-- What is placed and was there before was inside the target. -/
theorem inside_placed (hlive : d.isLive id = true) : d₀.Inside target id := by
  have hdrop := hplaced.origin.resolve_right (by simp [hlive])
  obtain ⟨used, haw⟩ := ha.awaits
  have hparent : d₀.parent? id = some frame.parent := by
    have hlive₀ := (haw frame List.mem_cons_self).live id hdrop
    rw [← ha.continues.parent?_eq id hlive₀ hlive, h.parent_of_mem (List.mem_of_mem_drop hdrop)]
  exact h₀.inside_of_parent? hparent
    (ha.below_of_mem (ha.frame_mem frame List.mem_cons_self) (h₀.isLive_parent hparent))

/-- What is placed was made if it was not there, and otherwise was inside the target. -/
theorem origin_placed (hfills : d.Fills d') {counter : Counter}
    (hcreated : counter = .created ↔ d.isLive id = false) :
    if counter = .created then d₀.isLive id = false else d₀.Inside target id := by
  split
  · next hcounter =>
    exact ha.continues.not_isLive_of_new hfills (hcreated.mp hcounter)
      (isLive_of_parent? hplaced.parent?_self)
  · next hcounter =>
    refine ha.inside_placed hplaced h₀ h ?_
    rw [← Bool.not_eq_false]
    exact mt hcreated.mpr hcounter

variable (hfills : d.Fills d') (hshows : d.Shows target (frame :: outer) opened done)
include hfills hshows

omit h₀ in
/-- When a node is placed, every other one inside the target is still accounted for. -/
theorem covered_placed (hid : x ≠ id) (hx : d'.Inside target x) : x ∈ ps.map (·.node) ∨
    ∃ g ∈ { parent := id } :: { frame with next := frame.next + 1 } :: outer,
      d'.InCut g.parent g.next x := by
  have hlive : d.isLive x = true := by
    rw [← hplaced.isLive_other hid]
    exact hx.isLive (hfills.isLive ha.isLive_target)
  have hsame := hplaced.sameOutside h ha.isLive_target (hshows.below_target h)
  refine (ha.covered x (hsame.inside h hlive hx)).imp_right fun hcut => ?_
  exact (hplaced.exists_inCut h hshows hcut).resolve_left hid

/-- When a node is placed, it is accounted for, as created exactly if it was not there. -/
theorem place (hlabels : ∀ x, d.isLive x = true → d'.label? x = d.label? x) {counter : Counter}
    (hcreated : counter = .created ↔ d.isLive id = false) :
    d₀.Accounts d' target ({ parent := id } :: { frame with next := frame.next + 1 } :: outer)
      (summary.counting counter) (ps ++ [⟨counter, id⟩]) := by
  have hentered := ha.toPasses.enter hplaced h₀ h hfills hlabels hshows
  have hsub : target :: ps.map (·.node) ⊆
      target :: (ps ++ [(⟨counter, id⟩ : Placement)]).map (·.node) :=
    List.cons_subset_cons target (by simp)
  refine
    { toPasses := by simpa using hentered
      parent_mem := List.forall_mem_append.mpr ⟨fun q hq => ?_, List.forall_mem_singleton.mpr ?_⟩
      covered := fun x hx => ?_
      fresh := fun x hx₀ hx' => ?_
      origin := List.forall_mem_append.mpr ⟨ha.origin, List.forall_mem_singleton.mpr ?_⟩
      counts := fun c => ?_
      removed := ?_ }
  · obtain ⟨p, hp, hparent⟩ := ha.parent_mem q hq
    refine ⟨p, hsub hp, ?_⟩
    rw [hplaced.parent?_of_isLive h (isLive_of_parent? hparent), hparent]
  · exact ⟨frame.parent, hsub (ha.frame_mem frame List.mem_cons_self), hplaced.parent?_self⟩
  · by_cases hid : x = id
    · exact Or.inl (by simp [hid])
    · refine (ha.covered_placed hplaced h hfills hshows hid hx).imp_left fun hmem => ?_
      simp [hmem]
  · by_cases hid : x = id
    · simp [hid]
    · rw [hplaced.isLive_other hid] at hx'
      simp [ha.fresh x hx₀ hx']
  · exact ha.origin_placed hplaced h₀ h hfills hcreated
  · rw [List.countP_append, ha.counts, PatchSummary.count_counting, List.countP_singleton]
    simp
  · rw [freedRoots_placed ha.continues h₀ hfills, ha.removed, PatchSummary.removed_counting]

end Placing

/-! ## Cutting off children -/

/-- When the innermost frame is closed, the children that are left over are accounted for. -/
theorem cut (ha : d₀.Accounts d target (frame :: outer) summary ps) (h₀ : d₀.WellFormed)
    (h : d.WellFormed) (hshows : d.Shows target (frame :: outer) opened done) :
    d₀.Accounts (d.cut frame.parent frame.next) target outer
      { summary with
        removed := summary.removed + ((d.children frame.parent).drop frame.next).length } ps where
  toPasses := ha.toPasses.cut h₀ h hshows
  parent_mem := by
    intro q hq
    obtain ⟨p, hp, hparent⟩ := ha.parent_mem q hq
    have hmem : q.node ∈ target :: ps.map (·.node) :=
      List.mem_cons_of_mem target (List.mem_map_of_mem hq)
    exact ⟨p, hp, by rw [parent?_cut h (ha.passed _ hmem frame List.mem_cons_self), hparent]⟩
  covered := by
    intro x hx
    have hlive' := hx.isLive (ha.toPasses.cut h₀ h hshows |>.isLive target List.mem_cons_self)
    have hlive := (frees_cut d frame.parent frame.next).isLive hlive'
    have hsame := h.sameOutside_cut frame.next (hshows.below_target h)
    refine (ha.covered x (hsame.inside h hlive hx)).imp_right ?_
    rintro ⟨g, hg, hcut⟩
    rcases List.mem_cons.mp hg with rfl | hg
    · exact absurd hcut (not_inCut_of_isLive h hlive')
    · exact ⟨g, hg, (inCut_cut_outer h (hshows.exists_child h g hg)).mpr hcut⟩
  fresh := fun x hx₀ hx' => ha.fresh x hx₀ ((frees_cut d frame.parent frame.next).isLive hx')
  origin := ha.origin
  counts := fun c => by
    rw [ha.counts]
    cases c <;> rfl
  removed := by
    obtain ⟨used, haw⟩ := ha.awaits
    rw [encard_freedRoots_cut ha.continues (haw frame List.mem_cons_self) h₀ h hshows.isLive,
      ha.removed]
    rfl

/-! ## When all frames are closed -/

/-- That the summary is kept makes no difference. -/
theorem lastPatch (ha : d₀.Accounts d target [] summary ps) :
    d₀.Accounts { d with lastPatch := summary } target [] summary ps where
  toPasses := ha.toPasses.lastPatch summary
  parent_mem := ha.parent_mem
  covered := fun x hx => (ha.covered x hx).imp_right (by simp)
  fresh := ha.fresh
  origin := ha.origin
  counts := ha.counts
  removed := ha.removed

/-- In the end, the nodes inside the target are those that were placed. -/
theorem inside_iff (ha : d₀.Accounts d target [] summary ps) (h : d.WellFormed) :
    d.Inside target x ↔ x ∈ ps.map (·.node) := by
  constructor
  · intro hx
    exact (ha.covered x hx).resolve_right (by simp)
  · intro hx
    induction x using h.acyclic.induction with
    | _ x ih =>
      obtain ⟨q, hq, rfl⟩ := List.mem_map.mp hx
      obtain ⟨p, hp, hparent⟩ := ha.parent_mem q hq
      refine h.inside_of_parent? hparent ?_
      rcases List.mem_cons.mp hp with rfl | hp
      · exact Below.refl d p
      · exact (ih p hparent hp).1

/-- What was inside the target and was not placed is freed, and nothing else. -/
theorem mem_freed_iff (ha : d₀.Accounts d target [] summary ps)
    (hsame : d₀.SameOutside d target) (h₀ : d₀.WellFormed) (h : d.WellFormed)
    (htarget : d₀.isLive target = true) :
    x ∈ d₀.freed d ↔ d₀.Inside target x ∧ x ∉ ps.map (·.node) := by
  constructor
  · rintro ⟨hx₀, hx⟩
    rw [← Bool.not_eq_true] at hx
    refine ⟨⟨?_, ?_⟩, fun hmem => hx (ha.isLive x (List.mem_cons_of_mem target hmem))⟩
    · by_contra hout
      exact hx (hsame.isLive hx₀ hout)
    · rintro rfl
      exact hx (ha.isLive x List.mem_cons_self)
  · rintro ⟨hinside, hmem⟩
    refine ⟨hinside.isLive htarget, ?_⟩
    rw [← Bool.not_eq_true]
    exact fun hlive => hmem ((ha.inside_iff h).mp (ha.continues.inside h₀ h hinside hlive))

/-- As many nodes are new as were counted as created. -/
theorem encard_created (ha : d₀.Accounts d target frames summary ps)
    (htarget : d₀.isLive target = true) :
    (d.freed d₀).encard = summary.created := by
  have hcreated : d.freed d₀ = {x | x ∈ (ps.filter (·.counter = .created)).map (·.node)} := by
    ext x
    simp only [freed, Set.mem_ofPred_eq, List.mem_map, List.mem_filter, decide_eq_true_eq]
    constructor
    · rintro ⟨hx, hx₀⟩
      obtain ⟨q, hq, rfl⟩ := List.mem_map.mp (ha.fresh x hx₀ hx)
      refine ⟨q, ⟨hq, ?_⟩, rfl⟩
      have horigin := ha.origin q hq
      by_contra hcounter
      rw [if_neg hcounter] at horigin
      rw [horigin.isLive htarget] at hx₀
      cases hx₀
    · rintro ⟨q, ⟨hq, hcounter⟩, rfl⟩
      have horigin := ha.origin q hq
      rw [if_pos hcounter] at horigin
      exact ⟨ha.isLive _ (List.mem_cons_of_mem target (List.mem_map_of_mem hq)), horigin⟩
  have hnodup : ((ps.filter (·.counter = .created)).map (·.node)).Nodup :=
    (List.nodup_cons.mp ha.nodup).2.sublist (List.filter_sublist.map _)
  rw [hcreated, encard_mem_of_nodup hnodup, List.length_map, ← List.countP_eq_length_filter,
    ha.counts]
  rfl

end Accounts

end Dom

/-! ## A whole stream -/

namespace Patcher

open Dom

variable {d₀ : Dom} {p : Patcher} {q q' : Progress} {target : NodeId} {ps : List Placement}

theorem accounts_openElement (h₀ : d₀.WellFormed) (hp : p.Follows target (some q))
    (ha : d₀.Accounts p.dom target p.frames p.summary ps) {tag key : String}
    {attrs : List Attribute} (hsize : (openElement tag key attrs p).dom.slots.size ≤ maxSlots) :
    d₀.Accounts (openElement tag key attrs p).dom target (openElement tag key attrs p).frames
      (openElement tag key attrs p).summary
      (ps ++ (p.placement? (.openElement tag key attrs)).toList) := by
  cases hp with
  | running hfault h hshows =>
    obtain ⟨frame, outer, hframes, hshows⟩ := exists_frame hshows
    obtain ⟨id, hplaced, hframes', -⟩ :=
      openElement_spec h hfault hframes hshows.isLive hshows.next_le hsize
    obtain ⟨counter, hplacement, hcounts, hcreated⟩ :=
      exists_placement_openElement h hfault hframes hshows.next_le hsize hplaced hframes'
    rw [hframes] at ha
    rw [hframes', hcounts, hplacement, Option.toList_some]
    exact ha.place hplaced h₀ h (fills_openElement tag key attrs p) hshows
      (fun _ => label?_openElement h.toFreeExact hsize) hcreated

theorem accounts_text (h₀ : d₀.WellFormed) (hp : p.Follows target (some q))
    (ha : d₀.Accounts p.dom target p.frames p.summary ps) {content : String}
    (hsize : (text content p).dom.slots.size ≤ maxSlots)
    (helements : (text content p).dom.ElementParents) :
    d₀.Accounts (text content p).dom target (text content p).frames (text content p).summary
      (ps ++ (p.placement? (.text content)).toList) := by
  cases hp with
  | running hfault h hshows =>
    obtain ⟨frame, outer, hframes, hshows⟩ := exists_frame hshows
    obtain ⟨id, hplaced, hframes', -⟩ :=
      text_spec h hfault hframes hshows.isLive hshows.next_le hsize
    obtain ⟨counter, hplacement, hcounts, hcreated⟩ :=
      exists_placement_text h hfault hframes hshows.isLive hshows.next_le hsize hplaced
    rw [hframes] at ha
    rw [hframes', hcounts, hplacement, Option.toList_some]
    have hentered := ha.place hplaced h₀ h (fills_text content p) hshows
      (fun _ => label?_text h.toFreeExact hsize) hcreated
    -- A text has no children, so nothing would be left over in its frame.
    refine hentered.tail fun x hx => ?_
    obtain ⟨s, hs, -⟩ := hx
    have helement := helements s id
      (hplaced.wellFormed.parent_of_mem (List.mem_of_mem_drop hs))
    simp [isElement, element?, hplaced.data_self] at helement

theorem accounts_closeElement (h₀ : d₀.WellFormed) (hp : p.Follows target (some q))
    (ha : d₀.Accounts p.dom target p.frames p.summary ps) {tag : String}
    (hp' : (closeElement tag p).Follows target (some q')) :
    d₀.Accounts (closeElement tag p).dom target (closeElement tag p).frames
      (closeElement tag p).summary ps := by
  obtain ⟨frame, outer, hframes, hshows, hclosed⟩ := hp.exists_closed hp'
  rw [hframes] at ha
  rw [hclosed]
  exact ha.cut h₀ hp.wellFormed hshows

/-- What was placed before a stream and what is placed by it are accounted for together. -/
theorem accounts_replayAll (h₀ : d₀.WellFormed) {stream : List Instruction}
    (hp : p.Follows target (some q)) (helements : p.dom.ElementParents)
    (ha : d₀.Accounts p.dom target p.frames p.summary ps) (hrun : q.run stream = some q')
    (hsize : (Instruction.replayAll stream p).dom.slots.size ≤ maxSlots) :
    d₀.Accounts (Instruction.replayAll stream p).dom target
      (Instruction.replayAll stream p).frames (Instruction.replayAll stream p).summary
      (ps ++ p.placements stream) := by
  induction stream generalizing p q ps with
  | nil =>
    rw [placements, List.append_nil]
    exact ha
  | cons i rest ih =>
    have hstep := (slots_size_le_replayAll (i.replay p) rest).trans hsize
    obtain ⟨next, hnext, hrest⟩ := Option.bind_eq_some_iff.mp hrun
    have hp' := hp.replay i hstep
    rw [Option.bind_some, hnext] at hp'
    have helements' := hp.elementParents_replay helements i hstep
    rw [placements, ← List.append_assoc]
    refine ih hp' helements' ?_ hrest hsize
    cases i with
    | openElement tag key attrs => exact accounts_openElement h₀ hp ha hstep
    | closeElement tag =>
      rw [placement?_closeElement, Option.toList_none, List.append_nil]
      exact accounts_closeElement h₀ hp ha hp'
    | text content => exact accounts_text h₀ hp ha hstep helements'

end Patcher

/-! ## A patch -/

namespace Dom

variable {d : Dom} {target : NodeId} {stream : List Instruction}

/-- When a patch has followed a balanced stream, all its frames are closed, and the summary that it
leaves has counted everything. -/
theorem WellFormed.accounts_patch (h : d.WellFormed) (helements : d.ElementParents)
    (helement : d.isElement target = true) {forest : List LiveNode}
    (hforest : Instruction.forest? stream = some forest)
    (hsize : (d.patch target stream).2.slots.size ≤ maxSlots) :
    d.Accounts (d.patch target stream).2 target [] (d.patch target stream).2.lastPatch
        (d.placements target stream) ∧
      (d.placements target stream).length = stream.countP Instruction.places := by
  rw [patch_of_isElement d helement] at hsize ⊢
  rw [Patcher.slots_size_finish] at hsize
  have hrun := Instruction.forest?_eq_some_iff.mp hforest
  have hstart := Patcher.follows_start h helement
  have hfollows := hstart.replayAll stream hsize
  have ha := Patcher.accounts_replayAll h hstart helements
    (.start h (isLive_of_isElement helement)) hrun hsize
  rw [Option.bind_some, hrun] at hfollows
  obtain ⟨next, hframes, hshows, hfinish⟩ := hfollows.finish_eq
  rw [hframes, List.nil_append] at ha
  rw [hfinish]
  exact ⟨(ha.cut h hfollows.wellFormed hshows).lastPatch, hstart.length_placements hrun hsize⟩

/-- A balanced stream is followed below a live node of a reachable tree.  If the node is an element,
the patch succeeds, and its summary accounts for every node.  It counts one node as created, reused
or moved for each element that the stream opens and each text; these are different nodes, and they
are just the nodes inside the target afterwards.  Those that are counted as created were not there
before, and those that are counted as reused or moved were inside the target.  Every other node that
was inside the target is freed, and nothing else is; the size changes by what was created and what
was freed.  What is counted as removed are the freed nodes whose parents were not freed.

If the node is no element, there is no patch and nothing changes. -/
theorem Reachable.patch_accounts (h : d.Reachable) (hlive : d.isLive target = true)
    (hbalanced : Instruction.Balanced stream)
    (hsize : (d.patch target stream).2.slots.size ≤ maxSlots) :
    let d' := (d.patch target stream).2
    let s := d'.lastPatch
    let ps := d.placements target stream
    if d.isElement target then
      (d.patch target stream).1 = .ok () ∧
        s.created + s.reused + s.moved = stream.countP Instruction.places ∧
        {x | d'.Inside target x}.encard = s.created + s.reused + s.moved ∧
        (∀ c, ps.countP (·.counter = c) = s.count c) ∧
        (ps.map (·.node)).Nodup ∧
        (∀ x, d'.Inside target x ↔ x ∈ ps.map (·.node)) ∧
        (∀ q ∈ ps,
          if q.counter = .created then d.isLive q.node = false else d.Inside target q.node) ∧
        (∀ x, x ∈ d.freed d' ↔ d.Inside target x ∧ x ∉ ps.map (·.node)) ∧
        d'.size + (d.freed d').encard = d.size + s.created ∧
        (d.freedRoots d').encard = s.removed
    else d.patch target stream = (.error (.notAnElement target), d) := by
  intro d' s ps
  have hsize₀ := (slots_size_le_patch d target stream).trans hsize
  have hwf := h.wellFormed hsize₀
  split
  · next helement =>
    obtain ⟨forest, hforest⟩ := Instruction.balanced_iff.mp hbalanced
    have hwf' : d'.WellFormed := hwf.patch target stream hsize
    obtain ⟨ha, hlength⟩ := hwf.accounts_patch (h.elementParents hsize₀) helement hforest hsize
    have ha : d.Accounts d' target [] s ps := ha
    have hcounted : s.created + s.reused + s.moved = ps.length := by
      rw [Placement.length_eq, ha.counts, ha.counts, ha.counts]
      rfl
    have hnodup := (List.nodup_cons.mp ha.nodup).2
    refine ⟨(hwf.forest_patch helement hforest hsize).1, hcounted.trans hlength, ?_, ha.counts,
      hnodup, fun x => ha.inside_iff hwf', ha.origin, fun x => ?_, ?_, ha.removed⟩
    · have hinside : {x | d'.Inside target x} = {x | x ∈ ps.map (·.node)} :=
        Set.ext fun x => ha.inside_iff hwf'
      rw [hinside, encard_mem_of_nodup hnodup, List.length_map, ← hcounted]
      push_cast
      rfl
    · exact ha.mem_freed_iff (hwf.sameOutside_patch target stream hsize) hwf hwf' hlive
    · rw [← ha.encard_created hlive]
      exact hwf.toFreeExact.size_add_encard hwf'.toFreeExact
  · next helement =>
    have hrequire := requireElement_of_not_isElement hlive (Bool.not_eq_true _ ▸ helement)
    simp only [patch, patchWith_of_requireElement hrequire]

/-- An element is moved to the front and loses its text, whose slot is filled again by the text that
another element gets; that element loses another one with a text below it, and one more element is
left over at the end.  Of the four nodes that are freed three are counted as removed. -/
theorem Reachable.patch_accounts_for_leftovers :
    let d := [Operation.createElement "ul",
      .patch ⟨0, 0⟩ [.text "a", .openElement "li" "k" [], .openElement "b" "n" [], .text "1",
        .closeElement "b", .closeElement "li", .openElement "i" "z" [], .text "x",
        .closeElement "i", .openElement "p" "q" [], .closeElement "p"]].foldl Dom.perform {}
    let stream := [Instruction.openElement "i" "z" [], .closeElement "i", .text "t",
      .openElement "li" "k" [], .text "in", .closeElement "li", .text "end"]
    let d' := (d.patch ⟨0, 0⟩ stream).2
    d'.lastPatch = { created := 2, reused := 2, moved := 1, removed := 3 } ∧
      d.placements ⟨0, 0⟩ stream = [⟨.moved, ⟨5, 0⟩⟩, ⟨.reused, ⟨1, 0⟩⟩, ⟨.reused, ⟨2, 0⟩⟩,
        ⟨.created, ⟨6, 1⟩⟩, ⟨.created, ⟨4, 1⟩⟩] ∧
      {x | d'.Inside ⟨0, 0⟩ x}.encard = 5 ∧
      (∀ x, x ∈ d.freed d' ↔
        d.Inside ⟨0, 0⟩ x ∧ x ∉ [⟨5, 0⟩, ⟨1, 0⟩, ⟨2, 0⟩, ⟨6, 1⟩, (⟨4, 1⟩ : NodeId)]) ∧
      (d.freed d').encard = 4 ∧ (d.freedRoots d').encard = 3 := by
  intro d stream d'
  have hlive : d.isLive ⟨0, 0⟩ = true := by decide +kernel
  have hbalanced : Instruction.Balanced stream := by decide
  have hsize : (d.patch ⟨0, 0⟩ stream).2.slots.size ≤ maxSlots := by decide +kernel
  have helement : d.isElement ⟨0, 0⟩ = true := by decide +kernel
  have hreachable : d.Reachable := Reachable.empty.foldl_perform _
  have haccounts := hreachable.patch_accounts hlive hbalanced hsize
  dsimp only at haccounts
  rw [if_pos helement] at haccounts
  obtain ⟨-, -, hinside, -, -, -, -, hfreed, hsizes, hroots⟩ := haccounts
  have hsummary : (d.patch ⟨0, 0⟩ stream).2.lastPatch =
      { created := 2, reused := 2, moved := 1, removed := 3 } := by
    decide +kernel
  have hplacements : d.placements ⟨0, 0⟩ stream = [⟨.moved, ⟨5, 0⟩⟩, ⟨.reused, ⟨1, 0⟩⟩,
      ⟨.reused, ⟨2, 0⟩⟩, ⟨.created, ⟨6, 1⟩⟩, ⟨.created, ⟨4, 1⟩⟩] := by
    decide +kernel
  have hbefore : d.size = 8 := by decide +kernel
  have hafter : (d.patch ⟨0, 0⟩ stream).2.size = 6 := by decide +kernel
  rw [hplacements] at hfreed
  rw [hsummary] at hinside hsizes hroots
  rw [hafter, hbefore] at hsizes
  refine ⟨hsummary, hplacements, ?_, hfreed, ?_, ?_⟩
  · exact_mod_cast hinside
  · have hsame : (6 : ℕ∞) + (d.freed d').encard = 6 + 4 := by exact_mod_cast hsizes
    exact ENat.add_right_injective_of_ne_top (ENat.natCast_ne_top 6) hsame
  · exact_mod_cast hroots

end Dom
end LiveMarkup
