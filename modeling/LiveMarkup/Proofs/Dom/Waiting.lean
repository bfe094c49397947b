import LiveMarkup.Proofs.Dom.Inheritance

/-!
# Children that wait to be taken over

From the cursor of a frame on stand the children that the patch has not reached.  Those with the
label of an element wait for it to be opened: the first of them is taken over, and only if none is
left a new element is made.

Main definitions:

- `Dom.waiting`: the children from a cursor on whose labels satisfy a condition.

Main results:

- `Patcher.place_fst`: the element that is found or made.
- `Dom.Placed.waiting_next`, `Dom.Placed.waiting_outer`: what still waits when a node is placed.
- `Dom.waiting_cut_outer`: what still waits when children are cut off.
-/

namespace LiveMarkup
namespace Dom

variable {d d' : Dom} {q : Label → Bool} {frame g : Cursor} {id : NodeId} {data : LiveData}

/-- The children from the cursor of a frame on whose labels satisfy a condition. -/
def waiting (d : Dom) (q : Label → Bool) (frame : Cursor) : List NodeId :=
  ((d.children frame.parent).drop frame.next).filter fun c => (d.label? c).any q

/-- Of nodes that are live already, those whose labels satisfy the condition are the same. -/
theorem filter_label?_congr (hlabels : ∀ x, d.isLive x = true → d'.label? x = d.label? x)
    {cs : List NodeId} (hlive : ∀ c ∈ cs, d.isLive c = true) :
    cs.filter (fun c => (d'.label? c).any q) = cs.filter fun c => (d.label? c).any q :=
  List.filter_congr fun c hc => by rw [hlabels c (hlive c hc)]

theorem mem_waiting {c : NodeId} :
    c ∈ d.waiting q frame ↔
      c ∈ (d.children frame.parent).drop frame.next ∧ (d.label? c).any q = true :=
  List.mem_filter

theorem isLive_of_mem_waiting (h : d.WellFormed) {c : NodeId} (hc : c ∈ d.waiting q frame) :
    d.isLive c = true :=
  h.isLive_child (List.mem_of_mem_drop (mem_waiting.mp hc).1)

/-! ## Placing a node -/

section Placing

variable (hplaced : d.Placed d' frame id data) (h : d.WellFormed)
  (hlabels : ∀ x, d.isLive x = true → d'.label? x = d.label? x)
include hplaced h hlabels

/-- A node that is placed waits no more. -/
theorem Placed.waiting_next (hnext : frame.next ≤ (d.children frame.parent).length) :
    d'.waiting q { frame with next := frame.next + 1 } = (d.waiting q frame).erase id := by
  rw [waiting, hplaced.drop_next hnext, waiting, List.erase_filter]
  refine filter_label?_congr hlabels fun c hc => ?_
  exact h.isLive_child (List.mem_of_mem_drop (List.mem_of_mem_erase hc))

omit hplaced in
/-- A node that does not satisfy the condition did not wait. -/
theorem erase_waiting (hother : (d'.label? id).any q = false) :
    (d.waiting q frame).erase id = d.waiting q frame := by
  refine List.erase_of_not_mem fun hmem => ?_
  rw [hlabels id (isLive_of_mem_waiting h hmem), (mem_waiting.mp hmem).2] at hother
  cases hother

/-- A frame around another is not concerned when a node is placed. -/
theorem Placed.waiting_outer
    (hinside : ∃ c ∈ (d.children g.parent).take g.next, d.Below c frame.parent) :
    d'.waiting q g = d.waiting q g := by
  rw [waiting, hplaced.children_other g.parent (not_inCut_outer h hinside).1]
  exact filter_label?_congr hlabels fun c hc => h.isLive_child (List.mem_of_mem_drop hc)

end Placing

/-! ## Cutting off children -/

/-- A frame around another is not concerned when children are cut off. -/
theorem waiting_cut_outer (h : d.WellFormed)
    (hinside : ∃ c ∈ (d.children g.parent).take g.next, d.Below c frame.parent) :
    (d.cut frame.parent frame.next).waiting q g = d.waiting q g := by
  obtain ⟨hne, hself⟩ := not_inCut_outer h hinside
  rw [waiting, children_cut h hself, if_neg hne]
  refine List.filter_congr fun b hb => ?_
  have hstay := not_inCut_child h hself hne (h.parent_of_mem (List.mem_of_mem_drop hb))
  rw [label?_congr (data?_cut h hstay)]

end Dom

/-! ## The element that is found or made -/

namespace Patcher

open Dom

theorem map_snd_findFrom? (d : Dom) (parent : NodeId) (start : Nat) (p : LiveData → Bool) :
    (findFrom? d parent start p).map (·.2) =
      ((d.children parent).drop start).find? fun id => (d.data? id).any p := by
  have hfst : (d.children parent).drop start =
      ((d.children parent).zipIdx.drop start).map (·.1) := by
    rw [List.map_drop, List.zipIdx_map_fst]
  rw [hfst, List.find?_map, findFrom?, Option.map_map]
  refine congrArg (Option.map _) (congrArg (List.find? · _) (funext fun entry => ?_))
  cases hdata : d.data? entry.1 <;> simp [hdata]

/-- Elements with a tag and a key are told by their label. -/
theorem any_isElementWith (d : Dom) (x : NodeId) (tag key : String) :
    (d.data? x).any (isElementWith tag key) = (d.label? x).any (· == ⟨tag, some key⟩) := by
  rw [label?, Bool.eq_iff_iff]
  cases d.data? x with
  | none => simp
  | some data => cases data <;> simp [isElementWith, LiveData.label?]

/-- The element that is placed is the first that waits, or a new one. -/
theorem place_fst (d : Dom) (summary : PatchSummary) (frame : Cursor) (tag key : String) :
    (place d summary frame tag key).1 =
      ((d.waiting (· == ⟨tag, some key⟩) frame).head?).getD
        (d.alloc (.element { tag, key := some key })).1 := by
  have hfound : (findFrom? d frame.parent frame.next (isElementWith tag key)).map (·.2) =
      (d.waiting (· == ⟨tag, some key⟩) frame).head? := by
    rw [map_snd_findFrom?, waiting, List.head?_filter]
    exact congrArg (List.find? · _) (funext fun x => any_isElementWith d x tag key)
  rw [← hfound, place]
  cases findFrom? d frame.parent frame.next (isElementWith tag key) with
  | none => rfl
  | some found =>
    dsimp only
    split <;> rfl

end Patcher
end LiveMarkup
