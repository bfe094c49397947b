import LiveMarkup.Proofs.Dom.Import
import LiveMarkup.Proofs.Dom.Outside
import LiveMarkup.Proofs.Dom.Retention
import LiveMarkup.Proofs.Patch.KeyChains
import LiveMarkup.Proofs.Patch.Tracing

/-!
# Patching a tree with the nodes that it shows

Where the elements with ids among some nodes stand below a target, a patch that goes through these
nodes comes to each of them in turn: when the instruction that opens it is read, it is the first
child from the cursor on with its label.  So the patch retains all that is anchored below the
target.

Main definitions:

- `Dom.Stands`: where the elements with ids among nodes stand.
- `Patcher.Retraces`: the invariant of such a patch.

Main results:

- `Dom.stands_of_forest`: where nodes were imported, they stand.
- `Patcher.place_of_pending`: the first pending child is found.
- `Patcher.retraces_openElement`, `Patcher.retraces_text`, `Patcher.retraces_closeElement`: one
  instruction keeps the invariant.
- `Patcher.retraces_replayAll`: so does a stream that goes through nodes.
- `Dom.WellFormed.retains_patch`: what a patch retains.
-/

namespace LiveMarkup
namespace Dom

variable {d : Dom} {keys : List String} {target : NodeId}

/-! ## Where nodes stand -/

/-- The elements with ids among nodes stand as children with given keys, one after the other, and
what is in them stands below. -/
inductive Stands (d : Dom) (keys : List String) : List Node → List NodeId → Prop where
  | nil : Stands d keys [] []
  | authored {tag own : String} {attrs : List Attribute} {children rest : List Node} {c : NodeId}
      {cs : List NodeId} (hown : Key.authored? attrs = some own)
      (hlabel : d.label? c = some ⟨tag, some own⟩)
      (hbelow : Stands d keys children (d.keyedChildren keys c)) (hafter : Stands d keys rest cs) :
      Stands d keys (.element tag attrs children :: rest) (c :: cs)
  | other {tag : String} {attrs : List Attribute} {children rest : List Node} {cs : List NodeId}
      (hnone : Key.authored? attrs = none) (hafter : Stands d keys rest cs) :
      Stands d keys (.element tag attrs children :: rest) cs
  | text {data : String} {rest : List Node} {cs : List NodeId} (hafter : Stands d keys rest cs) :
      Stands d keys (.text data :: rest) cs

/-- A text does not stand. -/
theorem Stands.of_text {data : String} {rest : List Node} {cs : List NodeId}
    (h : d.Stands keys (.text data :: rest) cs) : d.Stands keys rest cs := by
  cases h with
  | text hafter => exact hafter

/-- What is shown as a text has no label. -/
theorem label?_of_tree?_text (h : d.WellFormed) {c : NodeId} {content : String}
    (htree : d.tree? c = some (.text content)) : d.label? c = none := by
  rw [tree?_eq h, Option.map_eq_some_iff] at htree
  obtain ⟨data, hdata, heq⟩ := htree
  rw [label?, hdata, Option.bind_some]
  cases data with
  | element e => cases heq
  | text content => rfl
  | comment content => rfl

/-- Where nodes are imported, their elements with ids stand, if the keys of these are among the
given ones. -/
theorem stands_of_forest (h : d.WellFormed) :
    ∀ (ns : List Node) {cs : List NodeId}, Node.isPlainAll ns = true →
      (∀ c ∈ cs, d.isLive c = true) → cs.filterMap d.tree? = Node.liveAll ns →
      (∀ id ∈ Node.authoredIdsAll ns, Key.authored id ∈ keys) →
      d.Stands keys ns (cs.filter (d.isAmong keys))
  | [], [], _, _, _, _ => .nil
  | [], c :: cs, _, hlive, hforest, _ => by
    obtain ⟨tree, htree⟩ := exists_tree? h (hlive c List.mem_cons_self)
    rw [List.filterMap_cons_some htree] at hforest
    cases hforest
  | .element tag attrs children :: rest, cs, hplain, hlive, hforest, hkeys => by
    obtain ⟨hbelow, hafter⟩ := (Bool.and_eq_true _ _).mp hplain
    rw [Node.liveAll, Node.live?, Option.toList_some, List.singleton_append] at hforest
    obtain ⟨c, cs, rfl, htree, hrest⟩ := exists_cons_of_filterMap_tree? h hlive hforest
    obtain ⟨hdata, hchildren⟩ := data?_of_tree?_element h htree
    have hlabel : d.label? c = some ⟨tag, Key.authored? attrs⟩ := by
      rw [label?, hdata]
      rfl
    simp only [Node.authoredIdsAll, Node.authoredIds, List.mem_append, Option.mem_toList] at hkeys
    have hstands := stands_of_forest h rest hafter
      (fun x hx => hlive x (List.mem_cons_of_mem c hx)) hrest
      fun id hid => hkeys id (Or.inr hid)
    cases hown : Key.authored? attrs with
    | some own =>
      obtain ⟨id, hid, rfl⟩ := Option.map_eq_some_iff.mp (Key.authored?_eq attrs ▸ hown)
      have hkey := hkeys id (Or.inl (Or.inl hid))
      rw [List.filter_cons_of_pos (by simp [isAmong, hlabel, hown, Label.isAmong, hkey])]
      refine .authored hown (hlabel.trans (by rw [hown])) ?_ hstands
      exact stands_of_forest h children hbelow (fun x hx => h.isLive_child hx) hchildren
        fun id hid => hkeys id (Or.inl (Or.inr hid))
    | none =>
      rw [List.filter_cons_of_neg (by simp [isAmong, hlabel, hown, Label.isAmong])]
      exact .other hown hstands
  | .text data :: rest, cs, hplain, hlive, hforest, hkeys => by
    rw [Node.liveAll, Node.live?, Option.toList_some, List.singleton_append] at hforest
    obtain ⟨c, cs, rfl, htree, hrest⟩ := exists_cons_of_filterMap_tree? h hlive hforest
    rw [List.filter_cons_of_neg (by simp [isAmong, label?_of_tree?_text h htree])]
    exact .text (stands_of_forest h rest hplain
      (fun x hx => hlive x (List.mem_cons_of_mem c hx)) hrest hkeys)
  | .comment _ :: _, _, hplain, _, _, _ => by cases hplain
  | .directive _ :: _, _, hplain, _, _, _ => by cases hplain

end Dom

namespace Patcher

open Dom

variable {d₀ : Dom} {keys : List String} {target : NodeId}

/-! ## The element that is found -/

/-- The first pending child is the one that is found for its label. -/
theorem place_of_pending {d : Dom} {frame : Cursor} {c : NodeId} {rest : List NodeId}
    (hpending : d.pending keys frame = c :: rest) {tag key : String}
    (hlabel : d.label? c = some ⟨tag, some key⟩) (summary : PatchSummary) :
    (place d summary frame tag key).1 = c := by
  have hmem : c ∈ d.pending keys frame := by simp [hpending]
  have hkey : keys.contains key = true := by
    simpa [isAmong, hlabel, Label.isAmong] using (List.mem_filter.mp hmem).2
  -- Whatever has the label is a child with a given key, so it is found among these.
  have hamong : d.waiting (· == ⟨tag, some key⟩) frame =
      (d.pending keys frame).filter fun x => (d.label? x).any (· == ⟨tag, some key⟩) := by
    rw [pending, List.filter_filter, waiting]
    refine List.filter_congr fun x _ => ?_
    rw [Bool.eq_iff_iff, Bool.and_eq_true, iff_self_and]
    intro hx
    cases hown : d.label? x with
    | none => simp [hown] at hx
    | some label =>
      rw [hown, Option.any_some, beq_iff_eq] at hx
      simpa [isAmong, hown, hx, Label.isAmong] using hkey
  rw [place_fst, hamong, hpending, List.filter_cons_of_pos (by simp [hlabel]), List.head?_cons,
    Option.getD_some]

/-! ## The invariant -/

/-- A patch that runs retains what is anchored in the tree before it.  Its frames are told with the
children that are pending there, which counts for anchored frames only. -/
structure Retraces (p : Patcher) (d₀ : Dom) (keys : List String) (target : NodeId)
    (frames : List (Cursor × List NodeId)) : Prop where
  frames_eq : p.frames = frames.map (·.1)
  retains : d₀.Retains p.dom keys target
  pending_eq : ∀ entry ∈ frames, d₀.Anchored keys target entry.1.parent →
    p.dom.pending keys entry.1 = entry.2

/-! ## One instruction -/

section Steps

variable {p : Patcher} {q : Progress} {frame : Cursor} {expected : List NodeId}
  {outer : List (Cursor × List NodeId)}

/-- What is anchored is retained when a node is placed, and the node is pending no more. -/
theorem Retraces.placed (hr : p.Retraces d₀ keys target ((frame, expected) :: outer))
    (h : p.dom.WellFormed) {opened : List OpenElement} {done : List LiveNode}
    (hshows : p.dom.Shows target (frame :: outer.map (·.1)) opened done) {d' : Dom} {id : NodeId}
    {data : LiveData} (hplaced : p.dom.Placed d' frame id data) (hfills : p.dom.Fills d')
    (hlabels : ∀ x, p.dom.isLive x = true → d'.label? x = p.dom.label? x)
    {others : List NodeId} (hid : d₀.Anchored keys target frame.parent →
      expected = id :: others ∨ d'.isAmong keys id = false ∧ expected = others) :
    d₀.Retains d' keys target ∧
      ∀ entry ∈ ({ frame with next := frame.next + 1 }, others) :: outer,
        d₀.Anchored keys target entry.1.parent → d'.pending keys entry.1 = entry.2 := by
  have hpending := hr.pending_eq _ List.mem_cons_self
  refine ⟨hr.retains.placed h hplaced hfills hlabels ?_, List.forall_mem_cons.mpr ⟨?_, ?_⟩⟩
  · intro hanchored
    rw [hpending hanchored]
    exact (hid hanchored).imp (fun heq => ⟨others, heq⟩) And.left
  · intro hanchored
    rw [hplaced.pending_next h hlabels hshows.next_le]
    rcases hid hanchored with heq | ⟨hother, heq⟩
    · rw [hpending hanchored, heq, List.erase_cons_head]
    · rw [erase_pending h hlabels hother, hpending hanchored, heq]
  · intro entry hentry hanchored
    have hinside := hshows.exists_child h entry.1 (List.mem_map_of_mem hentry)
    rw [hplaced.pending_outer h hlabels hinside,
      hr.pending_eq entry (List.mem_cons_of_mem _ hentry) hanchored]

/-- What is placed in a frame is not the target. -/
theorem Retraces.ne_target {frames : List (Cursor × List NodeId)}
    (hr : p.Retraces d₀ keys target frames) (h : p.dom.WellFormed) {around : List Cursor}
    {opened : List OpenElement} {done : List LiveNode}
    (hshows : p.dom.Shows target (frame :: around) opened done) {d' : Dom} {id : NodeId}
    {data : LiveData} (hplaced : p.dom.Placed d' frame id data) : id ≠ target := by
  rintro rfl
  rcases hplaced.origin with hdrop | hdead
  · have hparent := h.parent_of_mem (List.mem_of_mem_drop hdrop)
    exact h.not_below_parent hparent (hshows.below_target h)
  · rw [hr.retains.isLive id .target] at hdead
    cases hdead

/-- A text is none of the elements that are retained. -/
theorem retraces_text (hfollows : p.Follows target (some q))
    (hr : p.Retraces d₀ keys target ((frame, expected) :: outer)) (content : String)
    (hsize : (text content p).dom.slots.size ≤ maxSlots) :
    (text content p).Retraces d₀ keys target
      (({ frame with next := frame.next + 1 }, expected) :: outer) := by
  cases hfollows with
  | running hfault h hshows =>
    have hframes : p.frames = frame :: outer.map (·.1) := hr.frames_eq
    rw [hframes] at hshows
    obtain ⟨id, hplaced, hframes', -⟩ :=
      text_spec h hfault hframes hshows.isLive hshows.next_le hsize
    have hother : (text content p).dom.isAmong keys id = false := by
      rw [isAmong, label?, hplaced.data_self]
      rfl
    obtain ⟨hretains, hpending⟩ := hr.placed h hshows hplaced (fills_text content p)
      (fun _ => label?_text h.toFreeExact hsize) fun _ => Or.inr ⟨hother, rfl⟩
    exact ⟨hframes', hretains, hpending⟩

/-- An element with an id is the next one pending, and what is in it stands below.  No other element
is anchored, nor is any below a node that is not. -/
theorem retraces_openElement (hfollows : p.Follows target (some q)) {cs rest : List NodeId}
    (hr : p.Retraces d₀ keys target ((frame, cs ++ rest) :: outer)) {tag key : String}
    {attrs kept : List Attribute} {children ns : List Node}
    (hstands : d₀.Anchored keys target frame.parent →
      d₀.Stands keys (.element tag attrs children :: ns) cs)
    (hauthored : ∀ own, Key.authored? attrs = some own → key = own)
    (hother : Key.authored? attrs = none → key ∉ keys)
    (hsize : (openElement tag key kept p).dom.slots.size ≤ maxSlots) :
    ∃ id cs', (d₀.Anchored keys target id → d₀.Stands keys children (d₀.keyedChildren keys id)) ∧
      (d₀.Anchored keys target frame.parent → d₀.Stands keys ns cs') ∧
      (openElement tag key kept p).Retraces d₀ keys target
        (({ parent := id }, d₀.keyedChildren keys id) ::
          ({ frame with next := frame.next + 1 }, cs' ++ rest) :: outer) := by
  cases hfollows with
  | running hfault h hshows =>
    have hframes : p.frames = frame :: outer.map (·.1) := hr.frames_eq
    rw [hframes] at hshows
    obtain ⟨id, hplaced, hframes', -⟩ :=
      openElement_spec h hfault hframes hshows.isLive hshows.next_le hsize
    have hlabel' : (openElement tag key kept p).dom.label? id = some ⟨tag, some key⟩ := by
      rw [label?, hplaced.data_self]
      rfl
    have hentered : ∀ {others : List NodeId}, (d₀.Anchored keys target frame.parent →
          cs ++ rest = id :: others ∨
            (openElement tag key kept p).dom.isAmong keys id = false ∧ cs ++ rest = others) →
        (openElement tag key kept p).Retraces d₀ keys target
          (({ parent := id }, d₀.keyedChildren keys id) ::
            ({ frame with next := frame.next + 1 }, others) :: outer) := by
      intro others hid
      obtain ⟨hretains, hpending⟩ := hr.placed h hshows hplaced (fills_openElement tag key kept p)
        (fun _ => label?_openElement h.toFreeExact hsize) hid
      exact ⟨hframes', hretains, List.forall_mem_cons.mpr ⟨hretains.children_eq id, hpending⟩⟩
    have hnotTarget := hr.ne_target h hshows hplaced
    -- In a frame that is not anchored nothing is expected, so any list will do there.
    by_cases hanchored : d₀.Anchored keys target frame.parent
    · cases hstands hanchored with
      | @authored _ own _ _ _ c cs' hown hlabel hbelow hafter =>
        cases hauthored own hown
        have hpending : p.dom.pending keys frame = c :: (cs' ++ rest) :=
          hr.pending_eq _ List.mem_cons_self hanchored
        have hmem : c ∈ d₀.keyedChildren keys frame.parent := by
          rw [← hr.retains.children_eq _ hanchored, keyedChildren_eq_append, hpending]
          simp
        have hid : id = c := by
          rw [eq_place_of_frames hfault hframes hframes']
          refine place_of_pending hpending ?_ _
          rw [hr.retains.label?_eq c (.child hanchored hmem), hlabel]
        subst hid
        exact ⟨id, cs', fun _ => hbelow, fun _ => hafter, hentered fun _ => Or.inl rfl⟩
      | other hnone hafter =>
        have hnotAmong : (openElement tag key kept p).dom.isAmong keys id = false := by
          simp [isAmong, hlabel', Label.isAmong, hother hnone]
        have hrun := hentered fun _ => Or.inr ⟨hnotAmong, rfl⟩
        refine ⟨id, cs, fun hid => ?_, fun _ => hafter, hrun⟩
        have hamong := (hrun.retains.anchored_parent hplaced.wellFormed hid hnotTarget
          hplaced.parent?_self).2
        rw [hnotAmong] at hamong
        cases hamong
    · have hrun := @hentered ([] ++ rest) fun hframe => absurd hframe hanchored
      refine ⟨id, [], fun hid => ?_, fun hframe => absurd hframe hanchored, hrun⟩
      exact absurd (hrun.retains.anchored_parent hplaced.wellFormed hid hnotTarget
        hplaced.parent?_self).1 hanchored

/-- When an element is closed in which nothing is pending, nothing that is anchored is freed. -/
theorem retraces_closeElement (hfollows : p.Follows target (some q)) {around : Cursor × List NodeId}
    (hr : p.Retraces d₀ keys target ((frame, []) :: around :: outer)) {tag : String}
    {q' : Progress} (hfollows' : (closeElement tag p).Follows target (some q')) :
    (closeElement tag p).Retraces d₀ keys target (around :: outer) := by
  obtain ⟨innermost, others, hframes, hshows, hclosed⟩ := hfollows.exists_closed hfollows'
  have h := hfollows.wellFormed
  obtain ⟨rfl, rfl⟩ := List.cons_eq_cons.mp (hframes.symm.trans hr.frames_eq)
  rw [hclosed]
  refine ⟨rfl, ?_, ?_⟩
  · exact hr.retains.cut h (hshows.below_target h) (hr.pending_eq _ List.mem_cons_self)
  · intro entry hentry hanchored
    have hinside := hshows.exists_child h entry.1 (List.mem_map_of_mem hentry)
    rw [dom_trim, pending_cut_outer h hinside,
      hr.pending_eq entry (List.mem_cons_of_mem _ hentry) hanchored]

end Steps

/-! ## A whole stream -/

/-- A stream that goes through nodes comes to all that was expected of them, and leaves the frames
around as they were. -/
theorem retraces_replayAll {ns : List Node} {stream : List Instruction}
    (htraces : Instruction.Traces keys ns stream) :
    ∀ {p : Patcher} {q : Progress} {frame : Cursor} {cs rest : List NodeId}
      {outer : List (Cursor × List NodeId)}, p.Follows target (some q) →
      p.Retraces d₀ keys target ((frame, cs ++ rest) :: outer) →
      (d₀.Anchored keys target frame.parent → d₀.Stands keys ns cs) →
      (Instruction.replayAll stream p).dom.slots.size ≤ maxSlots →
      ∃ next, (Instruction.replayAll stream p).Retraces d₀ keys target
        ((⟨frame.parent, next⟩, rest) :: outer) := by
  induction htraces with
  | nil =>
    intro p q frame cs rest outer _ hr hstands _
    obtain ⟨hhead, houter⟩ := List.forall_mem_cons.mp hr.pending_eq
    refine ⟨frame.next, hr.frames_eq, hr.retains, List.forall_mem_cons.mpr ⟨?_, houter⟩⟩
    intro hanchored
    cases hstands hanchored
    exact hhead hanchored
  | @element tag key attrs kept children ns inner others hauthored hother hinner _ ihinner
      ihothers =>
    intro p q frame cs rest outer hfollows hr hstands hsize
    have hsplit : Instruction.replayAll (.openElement tag key kept ::
          (inner ++ .closeElement tag :: others)) p =
        Instruction.replayAll others (closeElement tag
          (Instruction.replayAll inner (openElement tag key kept p))) :=
      List.foldl_append
    rw [hsplit] at hsize ⊢
    have hclosed := (slots_size_le_replayAll _ others).trans hsize
    have hfilled := (slots_size_closeElement _ tag).ge.trans hclosed
    have hopened := (slots_size_le_replayAll _ inner).trans hfilled
    have hfollows₁ := hfollows.replay (.openElement tag key kept) hopened
    have hfollows₂ := hfollows₁.replayAll inner hfilled
    obtain ⟨below, hbelow⟩ := hinner.run
    rw [Option.bind_some, Progress.step, Option.bind_some, hbelow] at hfollows₂
    have hfollows₃ := hfollows₂.replay (.closeElement tag) hclosed
    simp only [Option.bind_some, Progress.step, if_true] at hfollows₃
    obtain ⟨id, cs', hchild, hrest, hr₁⟩ :=
      retraces_openElement hfollows hr hstands hauthored hother hopened
    rw [← List.append_nil (d₀.keyedChildren keys id)] at hr₁
    obtain ⟨next, hr₂⟩ := ihinner hfollows₁ hr₁ hchild hfilled
    have hr₃ := retraces_closeElement hfollows₂ hr₂ hfollows₃
    obtain ⟨last, hend⟩ := ihothers hfollows₃ hr₃ hrest hsize
    exact ⟨last, hend⟩
  | @text data ns others _ ihothers =>
    intro p q frame cs rest outer hfollows hr hstands hsize
    have hplaced := (slots_size_le_replayAll (text data p) others).trans hsize
    obtain ⟨last, hend⟩ := ihothers (hfollows.replay (.text data) hplaced)
      (retraces_text hfollows hr data hplaced) (fun hanchored => (hstands hanchored).of_text) hsize
    exact ⟨last, hend⟩
  | skipped _ ihothers =>
    intro p q frame cs rest outer hfollows hr hstands hsize
    exact ihothers hfollows hr (fun hanchored => (hstands hanchored).of_text) hsize

/-- The end of a patch at which nothing is pending frees nothing that is anchored. -/
theorem Retraces.retains_finish {p : Patcher} {q : Option Progress} {frame : Cursor}
    (hfollows : p.Follows target q) (hr : p.Retraces d₀ keys target [(frame, [])]) :
    d₀.Retains p.finish.2 keys target := by
  have hsummary : ∀ {d : Dom}, d₀.Retains d keys target →
      ∀ summary, d₀.Retains { d with lastPatch := summary } keys target := fun h _ =>
    ⟨h.isLive, h.label?_eq, h.children_eq⟩
  have hframes : p.frames = [frame] := hr.frames_eq
  unfold Patcher.finish
  split
  · exact hsummary hr.retains _
  · next root hfault hroot =>
    cases hframes.symm.trans hroot
    cases hfollows with
    | running _ h hshows =>
      rw [hframes] at hshows
      exact hsummary (hr.retains.cut h (hshows.below_target h)
        (hr.pending_eq _ List.mem_cons_self)) _
    | stopped hstopped _ =>
      rw [hfault] at hstopped
      cases hstopped
  · exact hsummary hr.retains _
  · exact hsummary hr.retains _

end Patcher

namespace Dom

/-- Where nodes stand below a target, a patch that goes through them retains all that is anchored
there. -/
theorem WellFormed.retains_patch {d : Dom} (h : d.WellFormed) {keys : List String}
    {target : NodeId} (helement : d.isElement target = true) {ns : List Node}
    {stream : List Instruction} (htraces : Instruction.Traces keys ns stream)
    (hstands : d.Stands keys ns (d.keyedChildren keys target))
    (hsize : (d.patch target stream).2.slots.size ≤ maxSlots) :
    d.Retains (d.patch target stream).2 keys target := by
  rw [patch_of_isElement d helement] at hsize ⊢
  rw [Patcher.slots_size_finish] at hsize
  have hstart := Patcher.follows_start h helement
  have hr : Patcher.Retraces { dom := d, frames := [{ parent := target }] } d keys target
      [({ parent := target }, d.keyedChildren keys target ++ [])] :=
    { frames_eq := rfl
      retains := .refl h (isLive_of_isElement helement)
      pending_eq := by simp [pending_start] }
  obtain ⟨next, hend⟩ := Patcher.retraces_replayAll htraces hstart hr (fun _ => hstands) hsize
  exact hend.retains_finish (hstart.replayAll stream hsize)

end Dom
end LiveMarkup
