import LiveMarkup.Proofs.Dom.Handles
import LiveMarkup.Proofs.Dom.Heirs
import LiveMarkup.Proofs.Dom.Import

/-!
# Tags of live nodes

A node is what it is for as long as it lives: no operation, and no instruction of a patch, makes an
element of another node or gives an element another tag.  So a handle that was given out for an
element names that element or nothing, until its slot has been freed as often as there are
generations.

Main definitions:

- `Dom.KeepsTags`: the nodes that live in both of two trees have the same tag there, or none.

Main results:

- `Dom.WellFormed.keepsTags_perform`, `Patcher.Follows.keepsTags_replay`: operations other than
  patches, and the instructions of patches.
- `Dom.isChain_keepsTags_history`: the trees of a run.
- `Dom.tag?_of_isLive_created`: a created element that is still live has the tag it was created
  with.
-/

namespace LiveMarkup
namespace Dom

variable {d d' : Dom}

/-! ## Two trees -/

/-- A node that lives in both trees has the same tag in both, or in both none. -/
def KeepsTags (d d' : Dom) : Prop :=
  ∀ x, d.isLive x = true → d'.isLive x = true → d'.tag? x = d.tag? x

theorem isElement_eq_tag? (d : Dom) (x : NodeId) : d.isElement x = (d.tag? x).isSome := by
  simp [isElement, tag?]

theorem tag?_congr {x : NodeId} (h : d'.data? x = d.data? x) : d'.tag? x = d.tag? x := by
  rw [tag?, tag?, element?, element?, h]

/-- The tag of an element is that of its label. -/
theorem tag?_eq_label? (d : Dom) (x : NodeId) : d.tag? x = (d.label? x).map (·.tag) := by
  unfold tag? element? label?
  cases d.data? x with
  | none => rfl
  | some data => cases data <;> rfl

theorem KeepsTags.refl (d : Dom) : d.KeepsTags d :=
  fun _ _ _ => rfl

theorem keepsTags_of_label? (h : ∀ x, d.isLive x = true → d'.label? x = d.label? x) :
    d.KeepsTags d' := by
  intro x hx _
  rw [tag?_eq_label?, tag?_eq_label?, h x hx]

/-! ## Operations other than patches -/

theorem tag?_setOn (d : Dom) (id : NodeId) (name value : String) (x : NodeId) :
    (d.modifyElement id (setOn name value)).tag? x = d.tag? x := by
  unfold modifyElement
  simp only [tag?, element?, data?_eq, entry?_modify]
  by_cases hx : x = id
  · subst hx
    rw [if_pos rfl]
    cases d.entry? x with
    | none => rfl
    | some e =>
      cases hdata : e.data <;> simp [hdata, setOn]
  · rw [if_neg hx]

/-- Importing nodes under an element leaves all other nodes as they are, and the element its
data. -/
theorem keepsTags_importUnder (h : d.WellFormed) {parent : NodeId}
    (hlive : d.isLive parent = true) (ns : List Node)
    (hsize : (importUnder d parent ns).slots.size ≤ maxSlots) :
    d.KeepsTags (importUnder d parent ns) := by
  intro x hx _
  by_cases hparent : x = parent
  · subst hparent
    exact tag?_congr (forest_importUnder h hlive ns hsize).1
  · have hsame := (importUnder_spec h hlive ns hsize).others x hx hparent
    exact tag?_congr (by rw [data?_eq, data?_eq, hsame])

/-- An operation other than a patch keeps the tags. -/
theorem WellFormed.keepsTags_perform (h : d.WellFormed) {op : Operation}
    (hop : ∀ target stream, op ≠ .patch target stream)
    (hsize : (d.perform op).slots.size ≤ maxSlots) : d.KeepsTags (d.perform op) := by
  cases op with
  | createElement tag => exact keepsTags_of_label? fun _ => label?_alloc h.toFreeExact hsize
  | createText content => exact keepsTags_of_label? fun _ => label?_alloc h.toFreeExact hsize
  | setAttribute id name value =>
    simp only [Dom.perform, setAttribute]
    split
    · exact fun x _ _ => tag?_setOn d id name value x
    · exact .refl d
  | appendChild parent child =>
    simp only [Dom.perform]
    cases happend : d.appendChild parent child with
    | error e => exact .refl d
    | ok d' =>
      obtain ⟨-, -, -, rfl⟩ := appendChild_eq_ok happend
      exact keepsTags_of_label? fun x _ => label?_insertChild d _ _ _ x
  | remove id =>
    simp only [Dom.perform, remove]
    split
    · exact fun x _ _ => tag?_congr (data?_detach h id x)
    · exact .refl d
  | parseInto parser parent markup =>
    simp only [Dom.perform] at hsize ⊢
    cases hparse : parseInto parser d parent markup with
    | error e => exact .refl d
    | ok result =>
      obtain ⟨added, d'⟩ := result
      obtain ⟨hparent, ns, rfl⟩ := parseInto_eq_ok hparse
      rw [hparse] at hsize
      exact keepsTags_importUnder h (isLive_of_isElement hparent) ns hsize
  | patch target stream => exact absurd rfl (hop target stream)

/-- What is not cut off keeps its tag. -/
theorem WellFormed.keepsTags_cut (h : d.WellFormed) (parent : NodeId) (next : Nat) :
    d.KeepsTags (d.cut parent next) := by
  intro x _ hx
  refine tag?_congr (data?_cut h ?_)
  intro hcut
  rw [isLive, entry?_cut_of_inCut h hcut] at hx
  cases hx

end Dom

/-! ## Patches -/

namespace Patcher

open Dom

variable {target : NodeId}

/-- An instruction keeps the tags. -/
theorem Follows.keepsTags_replay {p : Patcher} {q : Option Progress} (hp : p.Follows target q)
    (i : Instruction) (hsize : (i.replay p).dom.slots.size ≤ maxSlots) :
    p.dom.KeepsTags (i.replay p).dom := by
  have h := hp.wellFormed
  cases i with
  | openElement tag key attrs =>
    exact keepsTags_of_label? fun _ => label?_openElement h.toFreeExact hsize
  | closeElement tag =>
    show p.dom.KeepsTags (closeElement tag p).dom
    unfold closeElement
    split
    · exact .refl p.dom
    · split
      · split
        · exact h.keepsTags_cut _ _
        · exact .refl p.dom
      · exact .refl p.dom
  | text content => exact keepsTags_of_label? fun _ => label?_text h.toFreeExact hsize

theorem Follows.keepsTags_finish {p : Patcher} {q : Option Progress} (hp : p.Follows target q) :
    p.dom.KeepsTags p.finish.2 := by
  have h := hp.wellFormed
  unfold Patcher.finish
  split
  · exact fun _ _ _ => rfl
  · next root _ _ => exact h.keepsTags_cut root.parent root.next
  · exact fun _ _ _ => rfl
  · exact fun _ _ _ => rfl

/-- The trees of a walk keep the tags, up to its end. -/
theorem Follows.isChain_keepsTags {p : Patcher} {q : Option Progress} (hp : p.Follows target q)
    (stream : List Instruction)
    (hsize : (Instruction.replayAll stream p).dom.slots.size ≤ maxSlots) :
    List.IsChain KeepsTags
      (p.dom :: (p.steps stream ++ [(Instruction.replayAll stream p).finish.2])) := by
  induction stream generalizing p q with
  | nil => exact List.isChain_pair.mpr hp.keepsTags_finish
  | cons i rest ih =>
    have hstep := (slots_size_le_replayAll (i.replay p) rest).trans hsize
    exact List.isChain_cons_cons.mpr ⟨hp.keepsTags_replay i hstep, ih (hp.replay i hstep) hsize⟩

end Patcher

namespace Dom

variable {d : Dom}

/-! ## A whole run -/

/-- The trees of an operation keep the tags. -/
theorem WellFormed.isChain_keepsTags_within (h : d.WellFormed) (op : Operation)
    (hsize : (d.perform op).slots.size ≤ maxSlots) :
    List.IsChain KeepsTags (d :: (d.within op ++ [d.perform op])) := by
  cases op with
  | patch target stream =>
    simp only [within, Dom.perform] at hsize ⊢
    split
    · next helement =>
      rw [patch_of_isElement d helement] at hsize ⊢
      rw [Patcher.slots_size_finish] at hsize
      exact (Patcher.follows_start h helement).isChain_keepsTags stream hsize
    · next helement =>
      rw [patch_of_not_isElement d helement]
      exact List.isChain_pair.mpr (.refl d)
  | _ => exact List.isChain_pair.mpr (h.keepsTags_perform (by rintro _ _ ⟨⟩) hsize)

/-- The trees of a run that does not outgrow the handles keep the tags. -/
theorem isChain_keepsTags_history {ops : List Operation}
    (hsize : (ops.foldl perform {}).slots.size ≤ maxSlots) :
    List.IsChain KeepsTags (history ops) := by
  refine isChain_past_of ?_
  rintro earlier op later rfl
  rw [List.foldl_append, List.foldl_cons] at hsize
  have hafter := (slots_size_le_foldl_perform _ later).trans hsize
  have hbefore := (slots_size_le_perform (earlier.foldl perform {}) op).trans hafter
  exact ((Reachable.empty.foldl_perform earlier).wellFormed hbefore).isChain_keepsTags_within op
    hafter

/-- Along trees that keep the tags, a node keeps its tag while it lives. -/
theorem tag?_eq_of_isChain {x : NodeId} {later : List Dom}
    (hchain : List.IsChain KeepsTags (d :: later)) (hlive : ∀ e ∈ d :: later, e.isLive x = true) :
    ∀ e ∈ d :: later, e.tag? x = d.tag? x := by
  induction later generalizing d with
  | nil => simp
  | cons d' rest ih =>
    obtain ⟨hstep, hrest⟩ := List.isChain_cons_cons.mp hchain
    rw [List.forall_mem_cons] at hlive
    refine List.forall_mem_cons.mpr ⟨rfl, ?_⟩
    intro e he
    rw [ih hrest hlive.2 e he, hstep x hlive.1 (hlive.2 d' List.mem_cons_self)]

/-- A handle that is live at both ends of a run was live all the time. -/
theorem isLive_of_isLive_last {x : NodeId} {front : List Dom} {last : Dom} {later : List Dom}
    (hsplit : d :: later = front ++ [last]) (hchain : List.IsChain Ages (d :: later))
    (hbound : timesFreed x.index (d :: later) < 2 ^ 32) (hlive : d.isLive x = true)
    (hlast : last.isLive x = true) : ∀ e ∈ d :: later, e.isLive x = true := by
  obtain ⟨alive, dead, rfl, halive, hdead⟩ := exists_lifetime hchain hlive hbound
  cases dead with
  | nil =>
    rw [List.append_nil]
    exact List.forall_mem_cons.mpr ⟨hlive, halive⟩
  | cons e rest =>
    -- The last of the dead trees is the last tree of all.
    have hend := congrArg List.getLast? hsplit
    rw [← List.cons_append, List.getLast?_append_cons, List.getLast?_concat] at hend
    rw [hdead last (List.mem_of_getLast? hend)] at hlast
    cases hlast

/-- In a run that does not outgrow the handles, an element that was created and is still live in the
end has the tag that it was created with, if its slot was freed fewer times than there are
generations. -/
theorem tag?_of_isLive_created {earlier later : List Operation} {tag : String}
    (hsize : ((earlier ++ .createElement tag :: later).foldl perform {}).slots.size ≤ maxSlots)
    (hfreed : timesFreed ((earlier.foldl perform {}).createElement tag).1.index
      (history (earlier ++ .createElement tag :: later)) < 2 ^ 32)
    (hlive : ((earlier ++ .createElement tag :: later).foldl perform {}).isLive
      ((earlier.foldl perform {}).createElement tag).1 = true) :
    ((earlier ++ .createElement tag :: later).foldl perform {}).tag?
      ((earlier.foldl perform {}).createElement tag).1 = some tag := by
  have htags := isChain_keepsTags_history hsize
  have hages := isChain_history (earlier ++ .createElement tag :: later)
  rw [history_append, past] at htags hages hfreed
  rw [List.foldl_append, List.foldl_cons] at hsize hlive ⊢
  have hafter := (slots_size_le_foldl_perform _ later).trans hsize
  have hbefore := (slots_size_le_perform _ _).trans hafter
  have hfree := ((Reachable.empty.foldl_perform earlier).wellFormed hbefore).toFreeExact
  obtain ⟨rest, hrest⟩ := exists_past_concat
    ((earlier.foldl perform {}).perform (.createElement tag)) later
  generalize earlier.foldl perform {} = d at *
  -- The run from the tree in which the element is new.
  have hsuffix : past {} earlier ++ (d :: (d.within (.createElement tag) ++
      past (d.perform (.createElement tag)) later) ++
        [later.foldl perform (d.perform (.createElement tag))]) =
      (past {} earlier ++ [d]) ++ (d.perform (.createElement tag) :: rest) := by
    rw [← hrest]
    simp [within]
  rw [List.foldl_cons, hsuffix] at htags hages hfreed
  have hnew : (d.perform (.createElement tag)).data? (d.createElement tag).1 =
      some (.element { tag }) := by
    rw [data?_eq, perform, createElement, entry?_alloc hfree _ hafter, if_pos rfl]
    rfl
  have hstart : (d.perform (.createElement tag)).isLive (d.createElement tag).1 = true := by
    rw [isLive_eq_data?, hnew]
    rfl
  have hall := isLive_of_isLive_last hrest.symm hages.right_of_append
    ((timesFreed_le_append _ _ _).trans_lt hfreed) hstart hlive
  have hmem : later.foldl perform (d.perform (.createElement tag)) ∈
      d.perform (.createElement tag) :: rest := by
    rw [← hrest]
    simp
  rw [tag?_eq_of_isChain htags.right_of_append hall _ hmem, tag?, element?, hnew]
  rfl

end Dom
end LiveMarkup
