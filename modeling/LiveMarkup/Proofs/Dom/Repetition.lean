import LiveMarkup.Proofs.Dom.Outside
import LiveMarkup.Proofs.Patch.Linearization

/-!
# A patch followed twice

After a patch, the target shows what the stream denotes.  So if the same stream is followed again,
every instruction finds its node at the cursor with the data that it would get, and nothing is left
over when an element is closed: the tree stays as it is, slot by slot.

Main definitions:

- `Instruction.places`: the instructions that place a node.
- `PatchSummary.reusing`: some more nodes counted as used again.
- `LiveNode.isPlaced`: the trees that streams denote.

Main results:

- `Dom.modify_eq_self`, `Dom.cut_eq_self`: changes that change nothing.
- `Patcher.openElement_at_cursor`, `Patcher.closeElement_at_end`, `Patcher.text_at_cursor`: the
  steps of a patch where all is in place.
- `Patcher.replayAll_of_shown`: what is shown already is walked over.
- `Dom.WellFormed.patch_of_forest`: a patch to what is shown already.
- `Dom.Reachable.patch_again`: a patch followed twice.
-/

namespace LiveMarkup

/-- Whether an instruction places a node. -/
def Instruction.places : Instruction → Bool
  | .openElement _ _ _ => true
  | .closeElement _ => false
  | .text _ => true

/-- A summary that says of some more nodes that they were used again. -/
def PatchSummary.reusing (s : PatchSummary) (n : Nat) : PatchSummary :=
  { s with reused := s.reused + n }

theorem PatchSummary.reusing_reusing (s : PatchSummary) (m n : Nat) :
    (s.reusing m).reusing n = s.reusing (m + n) := by
  rw [reusing, reusing, reusing, Nat.add_assoc]

/-! ## What streams denote -/

namespace LiveNode

mutual

/-- Whether a tree is one that a stream can denote: all its elements have keys, and it has no
comments. -/
def isPlaced : LiveNode → Bool
  | .element _ key _ children => key.isSome && isPlacedAll children
  | .text _ => true
  | .comment _ => false

/-- Whether trees are such that a stream can denote them. -/
def isPlacedAll : List LiveNode → Bool
  | [] => true
  | n :: rest => isPlaced n && isPlacedAll rest

end

theorem isPlacedAll_concat {before : List LiveNode} {n : LiveNode}
    (hbefore : isPlacedAll before = true) (hn : isPlaced n = true) :
    isPlacedAll (before ++ [n]) = true := by
  induction before with
  | nil => simp [isPlacedAll, hn]
  | cons m rest ih =>
    rw [isPlacedAll, Bool.and_eq_true] at hbefore
    rw [List.cons_append, isPlacedAll, hbefore.1, ih hbefore.2]
    rfl

end LiveNode

open LiveNode in
/-- Whatever is read, the trees that are done are such that a stream can denote them. -/
theorem Progress.isPlacedAll_run {p q : Progress} {stream : List Instruction}
    (hrun : p.run stream = some q) (hopened : ∀ o ∈ p.opened, isPlacedAll o.before = true)
    (hdone : isPlacedAll p.done = true) : isPlacedAll q.done = true := by
  induction stream generalizing p with
  | nil =>
    cases hrun
    exact hdone
  | cons i rest ih =>
    obtain ⟨next, hstep, hrest⟩ := Option.bind_eq_some_iff.mp hrun
    obtain ⟨opened, done⟩ := p
    cases i with
    | openElement tag key attrs =>
      cases hstep
      exact ih hrest (List.forall_mem_cons.mpr ⟨hdone, hopened⟩) rfl
    | text content =>
      cases hstep
      exact ih hrest hopened (isPlacedAll_concat hdone rfl)
    | closeElement tag =>
      cases opened with
      | nil => cases hstep
      | cons o outer =>
        simp only [step] at hstep
        split at hstep
        · cases hstep
          obtain ⟨ho, houter⟩ := List.forall_mem_cons.mp hopened
          refine ih hrest houter (isPlacedAll_concat ho ?_)
          rw [isPlaced, Option.isSome_some, Bool.true_and]
          exact hdone
        · cases hstep

/-- The trees that a stream denotes are such that a stream can denote them. -/
theorem Instruction.isPlacedAll_of_forest? {stream : List Instruction} {forest : List LiveNode}
    (h : forest? stream = some forest) : LiveNode.isPlacedAll forest = true :=
  Progress.isPlacedAll_run (forest?_eq_some_iff.mp h) (by simp) rfl

/-! ## Changes that change nothing -/

namespace Dom

variable {d : Dom}

theorem modify_eq_self {id : NodeId} {f : LiveEntry → LiveEntry}
    (hf : ∀ e, d.entry? id = some e → f e = e) : d.modify id f = d := by
  unfold modify
  split
  · next slot hslot =>
    split
    · next hgen =>
      have hentry : slot.entry.map f = slot.entry := by
        cases he : slot.entry with
        | none => rfl
        | some e =>
          have hid : d.entry? id = some e := by rw [entry?_of_slot hslot, if_pos hgen, he]
          rw [Option.map_some, hf e hid]
      have hslots : d.slots.setIfInBounds id.index slot = d.slots := by
        refine Array.ext_getElem? fun i => ?_
        by_cases hi : id.index = i
        · subst hi
          rw [Array.getElem?_setIfInBounds_self_of_lt (index_lt_of_slot hslot), hslot]
        · rw [Array.getElem?_setIfInBounds_ne hi]
      rw [hentry, hslots]
    · rfl
  · rfl

/-- Behind the last child there is nothing to cut off. -/
theorem cut_eq_self {parent : NodeId} {next : Nat} (hnext : (d.children parent).length ≤ next) :
    d.cut parent next = d := by
  rw [cut, List.drop_eq_nil_of_le hnext, List.foldl_nil]
  refine modify_eq_self fun e he => ?_
  have hchildren : d.children parent = e.children := by rw [children_eq, he]; rfl
  rw [List.take_of_length_le (hchildren ▸ hnext)]

/-- Live nodes have as many trees as they are. -/
theorem length_filterMap_tree? (h : d.WellFormed) {cs : List NodeId}
    (hlive : ∀ c ∈ cs, d.isLive c = true) : (cs.filterMap d.tree?).length = cs.length := by
  rw [List.filterMap_length_eq_length]
  intro c hc
  obtain ⟨tree, htree⟩ := exists_tree? h (hlive c hc)
  rw [htree, Option.isSome_some]

theorem length_forest (h : d.WellFormed) (id : NodeId) :
    (d.forest id).length = (d.children id).length :=
  length_filterMap_tree? h fun _ hc => h.isLive_child hc

end Dom

/-! ## Steps where all is in place -/

namespace Patcher

open Dom

variable {d : Dom} {parent id : NodeId} {next : Nat} {outer : List Cursor}
  {summary : PatchSummary}

/-- A node at the cursor that satisfies the condition is the first that is found. -/
theorem findFrom?_at_cursor {p : LiveData → Bool} {data : LiveData}
    (hid : (d.children parent)[next]? = some id) (hdata : d.data? id = some data)
    (hp : p data = true) : findFrom? d parent next p = some (next, id) := by
  obtain ⟨hlt, hget⟩ := List.getElem?_eq_some_iff.mp hid
  have hdrop : (d.children parent).zipIdx.drop next =
      (id, next) :: (d.children parent).zipIdx.drop (next + 1) := by
    rw [List.drop_eq_getElem_cons (by simpa using hlt)]
    simp [hget]
  rw [findFrom?, hdrop, List.find?_cons_of_pos (by simpa [hdata] using hp)]
  rfl

/-- An element that stands at the cursor as it is to be is entered. -/
theorem openElement_at_cursor {tag key : String} {attrs : List Attribute}
    (hid : (d.children parent)[next]? = some id)
    (hdata : d.data? id = some (.element { tag, key := some key, attrs })) :
    openElement tag key attrs ⟨d, ⟨parent, next⟩ :: outer, summary, none⟩ =
      ⟨d, ⟨id, 0⟩ :: ⟨parent, next + 1⟩ :: outer, summary.reusing 1, none⟩ := by
  have hfind := findFrom?_at_cursor (p := isElementWith tag key) hid hdata
    (by simp [isElementWith])
  have hmodify : d.modifyElement id (fun e => { e with attrs }) = d := by
    refine modify_eq_self fun e he => ?_
    obtain ⟨data, parent, children⟩ := e
    rw [data?_eq, he] at hdata
    cases hdata
    rfl
  simp [openElement, place, hfind, hmodify, PatchSummary.reusing]

/-- An element behind whose last child the cursor stands is closed as it is. -/
theorem closeElement_at_end {tag : String} (htag : d.tag? id = some tag) {around : Cursor}
    (hnext : (d.children id).length ≤ next) :
    closeElement tag ⟨d, ⟨id, next⟩ :: around :: outer, summary, none⟩ =
      ⟨d, around :: outer, summary, none⟩ := by
  have hdrop : (d.children id).drop next = [] := List.drop_eq_nil_of_le hnext
  have hcut := cut_eq_self hnext
  rw [cut, hdrop, List.foldl_nil] at hcut
  simp [closeElement, htag, trim, hdrop, hcut]

/-- A text that stands at the cursor as it is to be is passed. -/
theorem text_at_cursor {content : String} (hid : (d.children parent)[next]? = some id)
    (hdata : d.data? id = some (.text content)) :
    text content ⟨d, ⟨parent, next⟩ :: outer, summary, none⟩ =
      ⟨d, ⟨parent, next + 1⟩ :: outer, summary.reusing 1, none⟩ := by
  have hmodify : d.modify id (setText content) = d := by
    refine modify_eq_self fun e he => ?_
    obtain ⟨data, parent, children⟩ := e
    rw [data?_eq, he] at hdata
    cases hdata
    rfl
  simp [text, hid, hdata, hmodify, PatchSummary.reusing]

/-! ## A stream whose trees are shown already -/

open LiveNode in
/-- Trees that the children from the cursor on show already are walked over. -/
theorem replayAll_of_shown (h : d.WellFormed) :
    ∀ (ns : List LiveNode) (outer : List Cursor) (summary : PatchSummary) {parent : NodeId}
      {next : Nat} {rest : List LiveNode}, isPlacedAll ns = true →
      ((d.children parent).drop next).filterMap d.tree? = ns ++ rest →
      Instruction.replayAll (instructionsAll ns)
          (⟨d, ⟨parent, next⟩ :: outer, summary, none⟩ : Patcher) =
        (⟨d, ⟨parent, next + ns.length⟩ :: outer,
          summary.reusing ((instructionsAll ns).countP Instruction.places), none⟩ : Patcher)
  | [], _, _, _, _, _, _, _ => rfl
  | n :: ns, outer, summary, parent, next, rest, hplaced, hshown => by
    rw [isPlacedAll, Bool.and_eq_true] at hplaced
    obtain ⟨hn, hns⟩ := hplaced
    have hlive : ∀ c ∈ (d.children parent).drop next, d.isLive c = true := fun c hc =>
      h.isLive_child (List.mem_of_mem_drop hc)
    obtain ⟨id, cs, hdrop, htree, hcs⟩ := exists_cons_of_filterMap_tree? h hlive hshown
    have hid : (d.children parent)[next]? = some id := by
      rw [← List.head?_drop, hdrop, List.head?_cons]
    have hafter : ((d.children parent).drop (next + 1)).filterMap d.tree? = ns ++ rest := by
      rw [← List.tail_drop, hdrop, List.tail_cons]
      exact hcs
    have hothers := fun outer summary => replayAll_of_shown h ns outer summary hns hafter
    cases n with
    | element tag key attrs below =>
      rw [isPlaced, Bool.and_eq_true, Option.isSome_iff_exists] at hn
      obtain ⟨⟨key, rfl⟩, hbelow⟩ := hn
      obtain ⟨hdata, hforest⟩ := data?_of_tree?_element h htree
      have htag : d.tag? id = some tag := by simp [tag?, element?, hdata]
      have hend : (d.children id).length ≤ 0 + below.length := by
        rw [← hforest, length_forest h, Nat.zero_add]
      have hinside : ((d.children id).drop 0).filterMap d.tree? = below ++ [] := by
        rw [List.append_nil]
        exact hforest
      have hinner := fun outer summary =>
        replayAll_of_shown h below outer summary hbelow hinside
      have hsplit : instructionsAll (.element tag (some key) attrs below :: ns) =
          .openElement tag key attrs ::
            (instructionsAll below ++ .closeElement tag :: instructionsAll ns) := by
        simp [instructionsAll, instructions]
      have hreads (p : Patcher) :
          Instruction.replayAll (instructionsAll (.element tag (some key) attrs below :: ns)) p =
            Instruction.replayAll (instructionsAll ns) (closeElement tag
              (Instruction.replayAll (instructionsAll below) (openElement tag key attrs p))) := by
        rw [hsplit, Instruction.replayAll, List.foldl_cons, List.foldl_append, List.foldl_cons]
        rfl
      have hcount : (instructionsAll (.element tag (some key) attrs below :: ns)).countP
          Instruction.places = (instructionsAll below).countP Instruction.places +
            (instructionsAll ns).countP Instruction.places + 1 := by
        simp [hsplit, List.countP_cons, Instruction.places, Nat.add_assoc]
      have hnext : next + 1 + ns.length = next + (ns.length + 1) := by omega
      rw [hreads, openElement_at_cursor hid hdata, hinner, closeElement_at_end htag hend, hothers,
        hcount, hnext, PatchSummary.reusing_reusing, PatchSummary.reusing_reusing, Nat.add_comm 1,
        Nat.add_right_comm, List.length_cons]
    | text content =>
      have hdata := data?_of_tree?_text h htree
      have hreads (p : Patcher) :
          Instruction.replayAll (instructionsAll (.text content :: ns)) p =
            Instruction.replayAll (instructionsAll ns) (text content p) := rfl
      have hcount : (instructionsAll (.text content :: ns)).countP Instruction.places =
          (instructionsAll ns).countP Instruction.places + 1 := by
        simp [instructionsAll, instructions, List.countP_cons, Instruction.places]
      have hnext : next + 1 + ns.length = next + (ns.length + 1) := by omega
      rw [hreads, text_at_cursor hid hdata, hothers, hcount, hnext, PatchSummary.reusing_reusing,
        Nat.add_comm 1, List.length_cons]
    | comment content => cases hn

end Patcher

/-! ## A patch and the same patch again -/

namespace Dom

open Instruction LiveNode

variable {d : Dom} {target : NodeId} {stream : List Instruction}

/-- A stream whose forest the target shows already changes nothing. -/
theorem WellFormed.patch_of_forest (h : d.WellFormed) (helement : d.isElement target = true)
    (hforest : forest? stream = some (d.forest target)) :
    d.patch target stream =
      (.ok (), { d with lastPatch := { reused := stream.countP places } }) := by
  have hshown : ((d.children target).drop 0).filterMap d.tree? = d.forest target ++ [] := by
    rw [List.append_nil]
    rfl
  have hwalk := Patcher.replayAll_of_shown h (d.forest target) [] {}
    (isPlacedAll_of_forest? hforest) hshown
  rw [instructionsAll_of_forest? hforest, Nat.zero_add, length_forest h] at hwalk
  have hcut : d.cut target (d.children target).length = d := cut_eq_self le_rfl
  rw [patch_of_isElement d helement, hwalk]
  rw [Dom.cut, List.drop_length, List.foldl_nil] at hcut
  simp [Patcher.finish, Patcher.trim, hcut, PatchSummary.reusing]

/-- Following a balanced stream a second time below the same target leaves the tree as it is, slot
by slot, with the same free list; the summary says that every node was used again where it was.
What is no live element takes no patch, the second time as the first. -/
theorem Reachable.patch_again (h : d.Reachable) (hbalanced : Balanced stream)
    (hsize : (d.patch target stream).2.slots.size ≤ maxSlots) :
    let d₁ := (d.patch target stream).2
    d₁.patch target stream =
      if d.isElement target then
        (.ok (), { d₁ with
          lastPatch := { created := 0, reused := stream.countP places, moved := 0, removed := 0 } })
      else ((d.patch target stream).1, d₁) := by
  intro d₁
  have hwf := h.wellFormed ((slots_size_le_patch d target stream).trans hsize)
  split
  · next helement =>
    obtain ⟨forest, hforest⟩ := balanced_iff.mp hbalanced
    obtain ⟨-, hshown⟩ := hwf.forest_patch helement hforest hsize
    have hdata := (hwf.sameOutside_patch target stream hsize).data?_eq
    rw [← hshown] at hforest
    exact (hwf.patch target stream hsize).patch_of_forest
      ((isElement_congr hdata).trans helement) hforest
  · next helement =>
    have hsame : d₁ = d := patch_of_not_isElement d helement stream
    rw [hsame]
    exact Prod.ext rfl (patch_of_not_isElement d helement stream)

/-- Over leftovers, a stream with a repeated key and adjacent texts moves, creates and removes nodes
the first time, and the second time finds all of them in place. -/
theorem Reachable.patch_again_over_leftovers :
    let d := [Operation.createElement "div",
      .patch ⟨0, 0⟩ [.text "a", .openElement "p" "k" [], .text "old", .closeElement "p",
        .openElement "p" "k" [⟨"id", "k"⟩], .closeElement "p",
        .openElement "b" "z" [], .closeElement "b", .text "b"]].foldl Dom.perform {}
    let stream := [Instruction.openElement "b" "z" [], .text "t", .text "u", .closeElement "b",
      .openElement "p" "k" [], .text "in", .closeElement "p", .text "last",
      .openElement "p" "k" [], .closeElement "p", .openElement "p" "k" [], .closeElement "p"]
    let d₁ := (d.patch ⟨0, 0⟩ stream).2
    d₁.lastPatch = { created := 3, reused := 3, moved := 2, removed := 1 } ∧
      d₁.patch ⟨0, 0⟩ stream = (.ok (), { d₁ with lastPatch := { reused := 8 } }) := by
  intro d stream d₁
  have hbalanced : Balanced stream := by decide
  have hsize : (d.patch ⟨0, 0⟩ stream).2.slots.size ≤ maxSlots := by decide +kernel
  have hcount : stream.countP places = 8 := by decide
  have helement : d.isElement ⟨0, 0⟩ = true := by decide +kernel
  have hreachable : d.Reachable := Reachable.empty.foldl_perform _
  have hagain : d₁.patch ⟨0, 0⟩ stream = _ := hreachable.patch_again hbalanced hsize
  rw [if_pos helement, hcount] at hagain
  exact ⟨by decide +kernel, hagain⟩

end Dom
end LiveMarkup
