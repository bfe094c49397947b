import LiveMarkup.Proofs.Dom.Inheritance

/-!
# What lies at or after the cursors

From the cursor of each frame on stand the children that the patch has not reached, with all that
lies below them.  When a node is placed, this does not grow: what lies below the node comes to lie
behind the cursor of its own frame.  When the innermost frame is closed, what is left in the frames
around it stays as it is.

Main definitions:

- `Dom.Passes`: what is known of nodes that were placed before the cursors.

Main results:

- `Dom.Placed.below_iff`: a subtree in which nothing is placed.
- `Dom.Placed.not_inCut`, `Dom.Placed.exists_inCut`: what lies behind the cursors when a node is
  placed.
- `Dom.inCut_cut_outer`: what lies behind the cursors when the innermost frame is closed.
- `Dom.Passes.not_mem`: no node is placed twice.
- `Dom.Passes.advance`, `Dom.Passes.enter`, `Dom.Passes.cut`: the steps of a patch.
-/

namespace LiveMarkup
namespace Dom

variable {d₀ d d' : Dom} {target id x s : NodeId} {frame g : Cursor} {outer : List Cursor}
  {data : LiveData} {opened : List OpenElement} {done : List LiveNode} {nodes : List NodeId}

/-! ## Placing a node -/

section Placing

variable (hplaced : d.Placed d' frame id data) (h : d.WellFormed)
include hplaced h

/-- A subtree in which nothing is placed stays as it is. -/
theorem Placed.below_iff (hs : ¬ d.Below s frame.parent) : d'.Below s x ↔ d.Below s x := by
  refine below_iff_of_children h hplaced.wellFormed fun y hy => ?_
  refine hplaced.children_other y ?_
  rintro rfl
  exact hs hy

theorem Placed.ne_frame (hlive : d.isLive frame.parent = true) : id ≠ frame.parent := by
  rintro rfl
  rcases hplaced.origin with hdrop | hdead
  · exact h.ne_parent (h.parent_of_mem (List.mem_of_mem_drop hdrop)) rfl
  · rw [hlive] at hdead
    cases hdead

/-- What lies below the placed node lay behind the cursor. -/
theorem Placed.inCut_entered (hlive : d.isLive frame.parent = true) (hx : d'.InCut id 0 x) :
    d.InCut frame.parent frame.next x := by
  obtain ⟨s, hs, hbelow⟩ := hx
  rw [List.drop_zero, hplaced.children_other id (hplaced.ne_frame h hlive)] at hs
  have hs := h.parent_of_mem hs
  rcases hplaced.origin with hdrop | hdead
  · have hid := h.parent_of_mem (List.mem_of_mem_drop hdrop)
    have hapart : ¬ d.Below s frame.parent := fun hbelow =>
      h.not_below_parent hid ((below_of_parent? hs).trans hbelow)
    exact ⟨id, hdrop, (below_of_parent? hs).trans ((hplaced.below_iff h hapart).mp hbelow)⟩
  · rw [h.isLive_parent hs] at hdead
    cases hdead

/-- What lies behind the cursor lay there before. -/
theorem Placed.inCut_next (hnext : frame.next ≤ (d.children frame.parent).length)
    (hx : d'.InCut frame.parent (frame.next + 1) x) : d.InCut frame.parent frame.next x := by
  obtain ⟨s, hs, hbelow⟩ := hx
  rw [hplaced.drop_next hnext] at hs
  have hs := List.mem_of_mem_erase hs
  have hparent := h.parent_of_mem (List.mem_of_mem_drop hs)
  exact ⟨s, hs, (hplaced.below_iff h (h.not_below_parent hparent)).mp hbelow⟩

/-- A frame around the one in which a node is placed is not concerned. -/
theorem Placed.inCut_outer
    (hinside : ∃ c ∈ (d.children g.parent).take g.next, d.Below c frame.parent) :
    d'.InCut g.parent g.next x ↔ d.InCut g.parent g.next x := by
  have hne := (not_inCut_outer h hinside).1
  obtain ⟨c, hc, hbelow⟩ := hinside
  have hout := not_inCut_of_mem_take h hc hbelow
  unfold InCut
  rw [hplaced.children_other g.parent hne]
  refine exists_congr fun s => and_congr_right fun hs => ?_
  exact hplaced.below_iff h fun hbelow => hout ⟨s, hs, hbelow⟩

/-- What lay behind the cursor is the placed node, lies below it, or still lies behind the
cursor. -/
theorem Placed.inCut_split (hnext : frame.next ≤ (d.children frame.parent).length)
    (hlive : d.isLive frame.parent = true) (hx : d.InCut frame.parent frame.next x) :
    x = id ∨ d'.InCut id 0 x ∨ d'.InCut frame.parent (frame.next + 1) x := by
  obtain ⟨s, hs, hbelow⟩ := hx
  have hparent := h.parent_of_mem (List.mem_of_mem_drop hs)
  by_cases heq : s = id
  · subst heq
    rcases hbelow.eq_or_child with rfl | ⟨c, hc, hbelow⟩
    · exact .inl rfl
    · have hapart : ¬ d.Below c frame.parent := fun hbelow =>
        h.not_below_parent hparent ((below_of_parent? hc).trans hbelow)
      refine .inr (.inl ⟨c, ?_, (hplaced.below_iff h hapart).mpr hbelow⟩)
      rw [List.drop_zero, hplaced.children_other _ (hplaced.ne_frame h hlive)]
      exact h.mem_of_parent hc
  · refine .inr (.inr ⟨s, ?_, (hplaced.below_iff h (h.not_below_parent hparent)).mpr hbelow⟩)
    rw [hplaced.drop_next hnext]
    exact (List.mem_erase_of_ne heq).mpr hs

/-- What lies behind no cursor still lies behind none, nor below the placed node. -/
theorem Placed.not_inCut (hshows : d.Shows target (frame :: outer) opened done)
    (hx : ∀ g ∈ frame :: outer, ¬ d.InCut g.parent g.next x) :
    ∀ g ∈ { parent := id } :: { frame with next := frame.next + 1 } :: outer,
      ¬ d'.InCut g.parent g.next x := by
  obtain ⟨hframe, houter⟩ := List.forall_mem_cons.mp hx
  refine List.forall_mem_cons.mpr ⟨?_, List.forall_mem_cons.mpr ⟨?_, ?_⟩⟩
  · exact fun hcut => hframe (hplaced.inCut_entered h hshows.isLive hcut)
  · exact fun hcut => hframe (hplaced.inCut_next h hshows.next_le hcut)
  · intro g hg hcut
    exact houter g hg ((hplaced.inCut_outer h (hshows.exists_child h g hg)).mp hcut)

/-- What lay behind a cursor is the placed node, or still lies behind one. -/
theorem Placed.exists_inCut (hshows : d.Shows target (frame :: outer) opened done)
    (hx : ∃ g ∈ frame :: outer, d.InCut g.parent g.next x) :
    x = id ∨ ∃ g ∈ { parent := id } :: { frame with next := frame.next + 1 } :: outer,
      d'.InCut g.parent g.next x := by
  obtain ⟨g, hg, hcut⟩ := hx
  rcases List.mem_cons.mp hg with rfl | hg
  · rcases hplaced.inCut_split h hshows.next_le hshows.isLive hcut with heq | hcut | hcut
    · exact .inl heq
    · exact .inr ⟨_, List.mem_cons_self, hcut⟩
    · exact .inr ⟨_, List.mem_cons_of_mem _ List.mem_cons_self, hcut⟩
  · refine .inr ⟨g, List.mem_cons_of_mem _ (List.mem_cons_of_mem _ hg), ?_⟩
    exact (hplaced.inCut_outer h (hshows.exists_child h g hg)).mpr hcut

/-- The placed node lies behind no cursor. -/
theorem Placed.not_inCut_self (hshows : d.Shows target (frame :: outer) opened done) :
    ∀ g ∈ { frame with next := frame.next + 1 } :: outer, ¬ d'.InCut g.parent g.next id := by
  refine List.forall_mem_cons.mpr ⟨?_, fun g hg => ?_⟩
  · refine not_inCut_of_mem_take hplaced.wellFormed ?_ (Below.refl d' id)
    rw [hplaced.take_next hshows.next_le]
    exact List.mem_concat_self
  · have hinside := hshows.exists_child h g hg
    rw [hplaced.inCut_outer h hinside]
    obtain ⟨c, hc, hbelow⟩ := hinside
    rcases hplaced.origin with hdrop | hdead
    · have hid := below_of_parent? (h.parent_of_mem (List.mem_of_mem_drop hdrop))
      exact not_inCut_of_mem_take h hc (hbelow.trans hid)
    · rintro ⟨s, hs, hid⟩
      rw [hid.isLive (h.isLive_child (List.mem_of_mem_drop hs))] at hdead
      cases hdead

end Placing

/-! ## Cutting off children -/

/-- A frame around the one that is closed is not concerned. -/
theorem inCut_cut_outer (h : d.WellFormed)
    (hinside : ∃ c ∈ (d.children g.parent).take g.next, d.Below c frame.parent) :
    (d.cut frame.parent frame.next).InCut g.parent g.next x ↔ d.InCut g.parent g.next x := by
  obtain ⟨hne, hself⟩ := not_inCut_outer h hinside
  obtain ⟨c, hc, hbelow⟩ := hinside
  unfold InCut
  rw [children_cut h hself, if_neg hne]
  refine exists_congr fun s => and_congr_right fun hs => ?_
  refine below_iff_of_children h (h.cut _ _) fun y hy => ?_
  have hapart : ¬ d.Below c y := fun hcy => not_inCut_of_mem_take h hc hcy ⟨s, hs, hy⟩
  have hcut : ¬ d.InCut frame.parent frame.next y := fun hcut =>
    hapart (hbelow.trans (hcut.below h))
  rw [children_cut h hcut, if_neg]
  rintro rfl
  exact hapart hbelow

/-! ## What was passed -/

/-- The tree of a patch goes on from `d₀`.  Its frames are those of nodes that were passed; all of
these are live and different, and they lie before the cursors. -/
structure Passes (d₀ d : Dom) (frames : List Cursor) (nodes : List NodeId) : Prop where
  continues : d₀.Continues d
  awaits : ∃ used, ∀ frame ∈ frames, d₀.Awaits d used frame
  isLive : ∀ x ∈ nodes, d.isLive x = true
  frame_mem : ∀ frame ∈ frames, frame.parent ∈ nodes
  nodup : nodes.Nodup
  passed : ∀ x ∈ nodes, ∀ frame ∈ frames, ¬ d.InCut frame.parent frame.next x

namespace Passes

theorem start (h : d.WellFormed) (hlive : d.isLive target = true) :
    d.Passes d [{ parent := target }] [target] where
  continues := .refl d
  awaits := ⟨[], by simpa using awaits_start h target⟩
  isLive := by simpa using hlive
  frame_mem := by simp
  nodup := List.nodup_singleton target
  passed := by simpa using not_inCut_self h target 0

theorem tail (hp : d₀.Passes d (frame :: outer) nodes) : d₀.Passes d outer nodes where
  continues := hp.continues
  awaits := by
    obtain ⟨used, haw⟩ := hp.awaits
    exact ⟨used, (List.forall_mem_cons.mp haw).2⟩
  isLive := hp.isLive
  frame_mem := (List.forall_mem_cons.mp hp.frame_mem).2
  nodup := hp.nodup
  passed := fun x hx => (List.forall_mem_cons.mp (hp.passed x hx)).2

section Placing

variable (hp : d₀.Passes d (frame :: outer) nodes) (hplaced : d.Placed d' frame id data)
include hp hplaced

/-- What is placed was not passed before. -/
theorem not_mem : id ∉ nodes := by
  intro hid
  rcases hplaced.origin with hdrop | hdead
  · exact hp.passed id hid frame List.mem_cons_self ⟨id, hdrop, Below.refl d id⟩
  · rw [hp.isLive id hid] at hdead
    cases hdead

variable (h₀ : d₀.WellFormed) (h : d.WellFormed) (hfills : d.Fills d')
  (hlabels : ∀ x, d.isLive x = true → d'.label? x = d.label? x)
  (hshows : d.Shows target (frame :: outer) opened done)
include h₀ h hfills hlabels hshows

/-- When a node is placed, it is passed and can be entered. -/
theorem enter :
    d₀.Passes d' ({ parent := id } :: { frame with next := frame.next + 1 } :: outer)
      (nodes ++ [id]) where
  continues := hp.continues.placed h hplaced hfills hlabels
  awaits := by
    obtain ⟨used, haw⟩ := hp.awaits
    refine ⟨(data.label?.bind (·.key)).toList ++ used, ?_⟩
    refine awaits_placed haw h₀ h hp.continues hplaced hfills hlabels hshows
      (List.subset_append_right _ _) ?_
    intro tag key hlabel
    simp [hlabel]
  isLive := List.forall_mem_append.mpr ⟨fun x hx => hfills.isLive (hp.isLive x hx),
    List.forall_mem_singleton.mpr (isLive_of_parent? hplaced.parent?_self)⟩
  frame_mem := by
    have hframes : ∀ g ∈ frame :: outer, g.parent ∈ nodes ++ [id] := fun g hg =>
      List.mem_append_left _ (hp.frame_mem g hg)
    exact List.forall_mem_cons.mpr ⟨List.mem_concat_self,
      List.forall_mem_cons.mpr (List.forall_mem_cons.mp hframes)⟩
  nodup := by
    rw [← List.concat_eq_append]
    exact hp.nodup.concat (hp.not_mem hplaced)
  passed := by
    refine List.forall_mem_append.mpr ⟨fun x hx => ?_, List.forall_mem_singleton.mpr ?_⟩
    · exact hplaced.not_inCut h hshows (hp.passed x hx)
    · exact List.forall_mem_cons.mpr
        ⟨Dom.not_inCut_self hplaced.wellFormed id 0, hplaced.not_inCut_self h hshows⟩

/-- When a node is placed, what was passed before stays so. -/
theorem advance : d₀.Passes d' ({ frame with next := frame.next + 1 } :: outer) nodes := by
  have henter := (hp.enter hplaced h₀ h hfills hlabels hshows).tail
  exact
    { continues := henter.continues
      awaits := henter.awaits
      isLive := (List.forall_mem_append.mp henter.isLive).1
      frame_mem := List.forall_mem_cons.mpr (List.forall_mem_cons.mp hp.frame_mem)
      nodup := hp.nodup
      passed := (List.forall_mem_append.mp henter.passed).1 }

end Placing

/-- When the innermost frame is closed, nothing that was passed is freed. -/
theorem cut (hp : d₀.Passes d (frame :: outer) nodes) (h₀ : d₀.WellFormed) (h : d.WellFormed)
    (hshows : d.Shows target (frame :: outer) opened done) :
    d₀.Passes (d.cut frame.parent frame.next) outer nodes where
  continues := by
    obtain ⟨used, haw⟩ := hp.awaits
    exact hp.continues.cut h₀ h (haw frame List.mem_cons_self)
  awaits := by
    obtain ⟨used, haw⟩ := hp.awaits
    exact ⟨used, awaits_cut haw hp.continues h₀ h hshows⟩
  isLive := fun x hx => by
    rw [isLive_cut h (hp.passed x hx frame List.mem_cons_self), hp.isLive x hx]
  frame_mem := hp.tail.frame_mem
  nodup := hp.nodup
  passed := by
    intro x hx g hg
    rw [inCut_cut_outer h (hshows.exists_child h g hg)]
    exact hp.tail.passed x hx g hg

/-- What a patch counts makes no difference. -/
theorem lastPatch (hp : d₀.Passes d [] nodes) (summary : PatchSummary) :
    d₀.Passes { d with lastPatch := summary } [] nodes where
  continues := ⟨hp.continues.parent?_eq, hp.continues.label?_eq, hp.continues.fresh⟩
  awaits := ⟨[], by simp⟩
  isLive := hp.isLive
  frame_mem := hp.frame_mem
  nodup := hp.nodup
  passed := by simp

end Passes

end Dom
end LiveMarkup
