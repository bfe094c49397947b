import LiveMarkup.Proofs.Dom.Outside
import LiveMarkup.Proofs.Dom.Tags

/-!
# What a patch can reach

A patch stays inside its target, whatever stream it follows and however it ends.  What lies below
the target afterwards lay there before, or was made by the patch and has a handle that no node had
before in the whole run.

Main results:

- `Dom.exists_birth`: a node that comes alive along a run does so once.
- `Dom.never_live_before`: a node that an operation makes has a new handle.
- `Dom.WellFormed.below_of_patch`: no node from outside the target comes to lie below it.
- `Dom.patch_stays_inside`: all that a patch changes, and all that it adds.
-/

namespace LiveMarkup
namespace Dom

variable {d : Dom} {target x : NodeId}

/-! ## Nodes that come alive -/

/-- A node that is dead at the start of a run and live at its end comes alive once, and lives from
then on. -/
theorem exists_birth {later : List Dom} (hchain : List.IsChain Ages (d :: later))
    (hbound : timesFreed x.index (d :: later) < 2 ^ 32) {last : Dom}
    (hlast : later.getLast? = some last) (hlive : last.isLive x = true) :
    ∃ dead alive, later = dead ++ alive ∧ (∀ e ∈ dead, e.isLive x = false) ∧
      ∀ e ∈ alive, e.isLive x = true := by
  induction later generalizing d with
  | nil => cases hlast
  | cons d' rest ih =>
    have hchain' := (List.isChain_cons_cons.mp hchain).2
    have hbound' := (timesFreed_le_append x.index [d] (d' :: rest)).trans_lt hbound
    by_cases hnow : d'.isLive x = true
    · obtain ⟨front, hfront⟩ := List.getLast?_eq_some_iff.mp hlast
      exact ⟨[], d' :: rest, rfl, by simp,
        isLive_of_isLive_last hfront hchain' hbound' hnow hlive⟩
    · cases rest with
      | nil =>
        cases hlast
        exact absurd hlive hnow
      | cons d'' rest' =>
        obtain ⟨dead, alive, heq, hdead, halive⟩ := ih hchain' hbound' hlast
        refine ⟨d' :: dead, alive, by rw [heq, List.cons_append], ?_, halive⟩
        exact List.forall_mem_cons.mpr ⟨Bool.not_eq_true _ ▸ hnow, hdead⟩

/-- A node that an operation makes has a handle that was live in no tree before. -/
theorem never_live_before {ops : List Operation} {op : Operation}
    (hbound : timesFreed x.index (history (ops ++ [op])) < 2 ^ 32)
    (hdead : (ops.foldl perform {}).isLive x = false)
    (hlive : ((ops.foldl perform {}).perform op).isLive x = true) :
    ∀ e ∈ history ops, e.isLive x = false := by
  intro e he
  rcases List.mem_append.mp he with hpast | hnow
  · rw [← Bool.not_eq_true]
    intro hbefore
    have hsublist : [e, ops.foldl perform {}, (ops ++ [op]).foldl perform {}].Sublist
        (history (ops ++ [op])) := sublist_history hpast
    have hafter := not_isLive_of_sublist (isChain_history _) hbound hsublist hbefore hdead
    rw [List.foldl_append, List.foldl_cons, List.foldl_nil, hlive] at hafter
    cases hafter
  · rw [List.mem_singleton.mp hnow, hdead]

/-- Within the operation that makes it, a node comes alive once. -/
theorem exists_birth_within {ops : List Operation} {op : Operation}
    (hbound : timesFreed x.index (history (ops ++ [op])) < 2 ^ 32)
    (hlive : ((ops.foldl perform {}).perform op).isLive x = true) :
    ∃ dead alive, (ops.foldl perform {}).within op ++ [(ops.foldl perform {}).perform op] =
        dead ++ alive ∧ (∀ e ∈ dead, e.isLive x = false) ∧ ∀ e ∈ alive, e.isLive x = true := by
  have hhistory : history (ops ++ [op]) = past {} ops ++ (ops.foldl perform {} ::
      ((ops.foldl perform {}).within op ++ [(ops.foldl perform {}).perform op])) := by
    simp [history_append, past]
  rw [hhistory] at hbound
  refine exists_birth (isChain_within _ op) ?_ List.getLast?_concat hlive
  exact (timesFreed_le_append _ _ _).trans_lt hbound

/-! ## Nodes below the target -/

/-- What lies below the target after a patch lay there before or was dead. -/
theorem WellFormed.below_of_patch (h : d.WellFormed) {stream : List Instruction}
    (hsize : (d.patch target stream).2.slots.size ≤ maxSlots)
    (hbelow : (d.patch target stream).2.Below target x) (hlive : d.isLive x = true) :
    d.Below target x :=
  (h.sameOutside_patch target stream hsize).below_of_below h hlive hbelow

/-- A patch below a live element, balanced or not, leaves every live node that does not lie in the
subtree of its target as it is, and the target its data and its parent.  What lies below the target
afterwards lay there before, or the patch has made it; and then, as long as no slot has been freed
as often as there are generations, its handle was live in no tree of the run before, and from a
point within the patch on it is live. -/
theorem patch_stays_inside (ops : List Operation) (target : NodeId) (stream : List Instruction)
    (htarget : (ops.foldl perform {}).isElement target = true)
    (hsize : ((ops.foldl perform {}).patch target stream).2.slots.size ≤ maxSlots) :
    let d := ops.foldl perform {}
    let d' := (d.patch target stream).2
    (∀ x, d.isLive x = true → ¬ d.Below target x → d'.isLive x = true ∧
      d'.data? x = d.data? x ∧ d'.parent? x = d.parent? x ∧ d'.children x = d.children x) ∧
    d'.data? target = d.data? target ∧ d'.parent? target = d.parent? target ∧
    ∀ x, d'.Below target x → d.Below target x ∨
      d.isLive x = false ∧ d'.isLive x = true ∧
        ((∀ index, timesFreed index (history (ops ++ [.patch target stream])) < 2 ^ 32) →
          (∀ e ∈ history ops, e.isLive x = false) ∧
          ∃ dead alive, d.within (.patch target stream) ++ [d'] = dead ++ alive ∧
            (∀ e ∈ dead, e.isLive x = false) ∧ ∀ e ∈ alive, e.isLive x = true) := by
  intro d d'
  have h : d.WellFormed := (Reachable.empty.foldl_perform ops).wellFormed
    ((slots_size_le_patch d target stream).trans hsize)
  have hsame : d.SameOutside d' target := h.sameOutside_patch target stream hsize
  refine ⟨fun x hlive hout => ?_, hsame.data?_eq, hsame.parent?_eq, fun x hbelow => ?_⟩
  · have hentry := hsame.entry?_eq x hlive hout
    obtain ⟨hdata, hchildren⟩ := data?_children_congr hentry
    exact ⟨hsame.isLive hlive hout, hdata, by rw [parent?_eq, parent?_eq, hentry], hchildren⟩
  · have hlive' : d'.isLive x = true :=
      hbelow.isLive (hsame.isLive_target (isLive_of_isElement htarget))
    cases hlive : d.isLive x with
    | true => exact Or.inl (h.below_of_patch hsize hbelow hlive)
    | false =>
      refine Or.inr ⟨rfl, hlive', fun hfreed => ?_⟩
      exact ⟨never_live_before (hfreed x.index) hlive hlive',
        exists_birth_within (hfreed x.index) hlive'⟩

/-- A paragraph stands before a text.  Its former content has been freed; a stream that stops at an
unbalanced close gives it a new text, in one of the slots that were freed, and leaves the other text
as it is. -/
theorem patch_stays_inside_paragraph :
    let ops := [Operation.createElement "main", .createElement "p", .appendChild ⟨0, 0⟩ ⟨1, 0⟩,
      .createText "aside", .appendChild ⟨0, 0⟩ ⟨2, 0⟩,
      .patch ⟨1, 0⟩ [.openElement "b" "k" [], .text "x", .closeElement "b"], .patch ⟨1, 0⟩ []]
    let stream := [Instruction.text "y", .closeElement "p", .text "z"]
    let d := ops.foldl perform {}
    let d' := (d.patch ⟨1, 0⟩ stream).2
    d.isElement ⟨1, 0⟩ = true ∧ d'.slots.size ≤ maxSlots ∧
      (∀ index, timesFreed index (history (ops ++ [.patch ⟨1, 0⟩ stream])) < 2 ^ 32) ∧
      (d.isLive ⟨2, 0⟩ = true ∧ ¬ d.Below ⟨1, 0⟩ ⟨2, 0⟩) ∧
      d'.data? ⟨2, 0⟩ = d.data? ⟨2, 0⟩ ∧ d'.parent? ⟨2, 0⟩ = d.parent? ⟨2, 0⟩ ∧
      d'.Below ⟨1, 0⟩ ⟨4, 1⟩ ∧ timesFreed 4 (history ops) = 1 ∧
      ∀ e ∈ history ops, e.isLive ⟨4, 1⟩ = false := by
  intro ops stream d d'
  have htarget : d.isElement ⟨1, 0⟩ = true := by decide +kernel
  have hsize : d'.slots.size ≤ maxSlots := by decide +kernel
  have hfreed : ∀ index,
      timesFreed index (history (ops ++ [.patch ⟨1, 0⟩ stream])) < 2 ^ 32 := by
    intro index
    refine (timesFreed_le_length index _).trans_lt ?_
    decide +kernel
  have h : d.WellFormed := (Reachable.empty.foldl_perform ops).wellFormed (by decide +kernel)
  have haside : d.isLive ⟨2, 0⟩ = true := by decide +kernel
  have hapart : ¬ d.Below ⟨1, 0⟩ ⟨2, 0⟩ := by
    rw [← h.contains_iff haside]
    decide +kernel
  have hbelow : d'.Below ⟨1, 0⟩ ⟨4, 1⟩ := below_of_parent? (by decide +kernel)
  obtain ⟨hout, -, -, hin⟩ := patch_stays_inside ops ⟨1, 0⟩ stream htarget hsize
  obtain ⟨-, hdata, hparent, -⟩ := hout ⟨2, 0⟩ haside hapart
  refine ⟨htarget, hsize, hfreed, ⟨haside, hapart⟩, hdata, hparent, hbelow, by decide +kernel, ?_⟩
  rcases hin ⟨4, 1⟩ hbelow with hold | ⟨-, -, hnew⟩
  · have hlive := hold.isLive (isLive_of_isElement htarget)
    revert hlive
    decide +kernel
  · exact (hnew hfreed).1

end Dom
end LiveMarkup
