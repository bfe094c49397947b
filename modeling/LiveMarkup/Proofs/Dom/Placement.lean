import LiveMarkup.Dom.Patcher
import LiveMarkup.Proofs.Dom.Growth

/-!
# Placing a node at a cursor

Opening an element and placing a text do the same to the tree: a node, which is a child from the
cursor on or a new one, comes to stand at the cursor with new data.  The other children keep their
order, and nothing else changes.

Main definitions:

- `Dom.Placed`: what placing a node at a cursor does.

Main results:

- `Dom.Placed.drop_next`, `Dom.Placed.take_next`: the children around the cursor afterwards.
- `Patcher.placed_place`: an element is found or made, and placed.
- `Patcher.openElement_spec`, `Patcher.text_spec`: the two steps of a patch that place a node.
-/

namespace LiveMarkup
namespace Dom

variable {d : Dom}

/-- The node `id` is placed at the cursor of a frame with some data: it was a child from the cursor
on or is new, and nothing but its data and the order of the children changes. -/
structure Placed (d d' : Dom) (frame : Cursor) (id : NodeId) (data : LiveData) : Prop where
  wellFormed : d'.WellFormed
  origin : id ∈ (d.children frame.parent).drop frame.next ∨ d.isLive id = false
  data_self : d'.data? id = some data
  data_other : ∀ x, x ≠ id → d'.data? x = d.data? x
  children_parent : d'.children frame.parent =
    (d.children frame.parent).take frame.next ++
      id :: ((d.children frame.parent).drop frame.next).erase id
  children_other : ∀ x, x ≠ frame.parent → d'.children x = d.children x

/-! ## Lists of children -/

/-- An element moved to a position behind which it stands. -/
theorem insertIdx_filter_ne {α : Type} [DecidableEq α] {children : List α} {next : Nat} {id : α}
    (hnodup : children.Nodup) (hnext : next ≤ children.length) (hid : id ∉ children.take next) :
    let kept := children.filter fun c => c != id
    kept.insertIdx (min next kept.length) id =
      children.take next ++ id :: (children.drop next).erase id := by
  have hkept : children.filter (fun c => c != id) =
      children.take next ++ (children.drop next).erase id := by
    conv_lhs => rw [← List.take_append_drop next children]
    rw [List.filter_append, (hnodup.sublist (List.drop_sublist next children)).erase_eq_filter]
    congr 1
    refine List.filter_eq_self.mpr ?_
    intro c hc
    simpa using fun heq : c = id => hid (heq ▸ hc)
  have hlength : (children.take next).length = next := List.length_take_of_le hnext
  simp only [hkept, List.length_append, hlength, Nat.min_eq_left (Nat.le_add_right next _)]
  calc (children.take next ++ (children.drop next).erase id).insertIdx next id
      = (children.take next ++ (children.drop next).erase id).insertIdx
          (children.take next).length id := by rw [hlength]
    _ = children.take next ++ id :: (children.drop next).erase id := by
      generalize children.take next = front
      induction front with
      | nil => rfl
      | cons c rest ih => simpa using ih

/-! ## How a node comes to be placed -/

/-- The child at the cursor is placed where it stands. -/
theorem placed_at_cursor (h : d.WellFormed) {frame : Cursor} {id : NodeId} {data : LiveData}
    (hid : (d.children frame.parent)[frame.next]? = some id) (hdata : d.data? id = some data) :
    d.Placed d frame id data where
  wellFormed := h
  origin := by
    left
    rw [List.drop_eq_getElem?_toList_append, hid]
    simp
  data_self := hdata
  data_other := fun _ _ => rfl
  children_parent := by
    conv_lhs => rw [← List.take_append_drop frame.next (d.children frame.parent)]
    rw [List.drop_eq_getElem?_toList_append, hid]
    simp
  children_other := fun _ _ => rfl

/-- A node that is a child from the cursor on or is new is among no other children. -/
theorem not_mem_children_of_origin (h : d.WellFormed) {frame : Cursor} {id x : NodeId}
    (horigin : id ∈ (d.children frame.parent).drop frame.next ∨ d.isLive id = false)
    (hx : x ≠ frame.parent) : id ∉ d.children x := by
  intro hmem
  rcases horigin with hdrop | hdead
  · have hparent := h.parent_of_mem (List.mem_of_mem_drop hdrop)
    rw [h.parent_of_mem hmem] at hparent
    exact hx (Option.some.inj hparent)
  · rw [h.isLive_child hmem] at hdead
    cases hdead

theorem not_mem_take_of_origin (h : d.WellFormed) {frame : Cursor} {id : NodeId}
    (horigin : id ∈ (d.children frame.parent).drop frame.next ∨ d.isLive id = false) :
    id ∉ (d.children frame.parent).take frame.next := by
  intro hmem
  rcases horigin with hdrop | hdead
  · have hnodup := h.children_nodup frame.parent
    rw [← List.take_append_drop frame.next (d.children frame.parent)] at hnodup
    exact (List.nodup_append.mp hnodup).2.2 id hmem id hdrop rfl
  · rw [h.isLive_child (List.mem_of_mem_take hmem)] at hdead
    cases hdead

/-- A node is placed by moving it to the cursor; it may have been added just before. -/
theorem placed_insertChild (h : d.WellFormed) {d₁ : Dom} (h₁ : d₁.WellFormed) {frame : Cursor}
    {id : NodeId} {data : LiveData} (hchildren : ∀ x, d₁.children x = d.children x)
    (hother : ∀ x, x ≠ id → d₁.data? x = d.data? x) (hdata : d₁.data? id = some data)
    (hparent : d₁.isLive frame.parent = true)
    (hnext : frame.next ≤ (d.children frame.parent).length)
    (horigin : id ∈ (d.children frame.parent).drop frame.next ∨ d.isLive id = false)
    (hbelow : ¬ d₁.Below id frame.parent) :
    d.Placed (d₁.insertChild frame.parent frame.next id) frame id data := by
  have hlive : d₁.isLive id = true := by
    rw [isLive_eq_data?, hdata]
    rfl
  have hne : frame.parent ≠ id := by
    intro heq
    exact hbelow (heq ▸ Below.refl d₁ id)
  refine
    { wellFormed := h₁.insertChild hparent hlive hbelow _
      origin := horigin
      data_self := ?_
      data_other := ?_
      children_parent := ?_
      children_other := ?_ }
  · rw [data?_insertChild h₁ hne, hdata]
  · intro x hx
    rw [data?_insertChild h₁ hne, hother x hx]
  · rw [children_insertChild h₁ hne hparent, hchildren]
    simp only [if_true]
    exact insertIdx_filter_ne (h.children_nodup _) hnext (not_mem_take_of_origin h horigin)
  · intro x hx
    rw [children_insertChild h₁ hne hparent, hchildren]
    simp only [if_neg hx]
    refine List.filter_eq_self.mpr ?_
    intro c hc
    have hcid : c ≠ id := fun heq => not_mem_children_of_origin h horigin hx (heq ▸ hc)
    simpa using hcid

/-- A new node is placed. -/
theorem placed_alloc (h : d.WellFormed) {frame : Cursor} (data : LiveData)
    (hsize : (d.alloc data).2.slots.size ≤ maxSlots) (hparent : d.isLive frame.parent = true)
    (hnext : frame.next ≤ (d.children frame.parent).length) :
    d.Placed ((d.alloc data).2.insertChild frame.parent frame.next (d.alloc data).1) frame
      (d.alloc data).1 data := by
  have hnew := newRoot_alloc h.toFreeExact hsize
  have hsame := unchanged_alloc h.toFreeExact hsize
  refine placed_insertChild h (h.alloc data hsize) (children_alloc h.toFreeExact data hsize) ?_ ?_
    (hsame.isLive hparent) hnext (Or.inr hnew.fresh) (hnew.not_below h hsame hparent)
  · intro x hx
    rw [data?_eq, data?_eq, entry?_alloc h.toFreeExact data hsize, if_neg hx]
  · rw [data?_eq, entry?_alloc h.toFreeExact data hsize, if_pos rfl]
    rfl

/-- A child from the cursor on is placed by moving it. -/
theorem placed_move (h : d.WellFormed) {frame : Cursor} {id : NodeId} {data : LiveData}
    (hdata : d.data? id = some data) (hnext : frame.next ≤ (d.children frame.parent).length)
    (hid : id ∈ (d.children frame.parent).drop frame.next) :
    d.Placed (d.insertChild frame.parent frame.next id) frame id data := by
  have hparent := h.parent_of_mem (List.mem_of_mem_drop hid)
  exact placed_insertChild h h (fun _ => rfl) (fun _ _ => rfl) hdata (h.isLive_parent hparent)
    hnext (Or.inl hid) (h.not_below_parent hparent)

/-- Behind the cursor, the placed node is left out. -/
theorem Placed.drop_next {d' : Dom} {frame : Cursor} {id : NodeId} {data : LiveData}
    (hplaced : d.Placed d' frame id data) (hnext : frame.next ≤ (d.children frame.parent).length) :
    (d'.children frame.parent).drop (frame.next + 1) =
      ((d.children frame.parent).drop frame.next).erase id := by
  rw [hplaced.children_parent, List.drop_append, List.length_take_of_le hnext]
  simp

/-- Before the cursor, the placed node is the last. -/
theorem Placed.take_next {d' : Dom} {frame : Cursor} {id : NodeId} {data : LiveData}
    (hplaced : d.Placed d' frame id data) (hnext : frame.next ≤ (d.children frame.parent).length) :
    (d'.children frame.parent).take (frame.next + 1) =
      (d.children frame.parent).take frame.next ++ [id] := by
  rw [hplaced.children_parent, List.take_append, List.length_take_of_le hnext]
  simp [List.take_take]

/-- At the cursor stands the placed node. -/
theorem Placed.getElem?_next {d' : Dom} {frame : Cursor} {id : NodeId} {data : LiveData}
    (hplaced : d.Placed d' frame id data) (hnext : frame.next ≤ (d.children frame.parent).length) :
    (d'.children frame.parent)[frame.next]? = some id := by
  have hlength := List.length_take_of_le hnext
  rw [hplaced.children_parent, List.getElem?_append_right hlength.le, hlength]
  simp

/-- A placed node may be given other data. -/
theorem Placed.modify {d' : Dom} {frame : Cursor} {id : NodeId} {data data' : LiveData}
    (hplaced : d.Placed d' frame id data) {f : LiveEntry → LiveEntry}
    (hparent : ∀ e, (f e).parent = e.parent) (hchildren : ∀ e, (f e).children = e.children)
    (hdata : ∀ e, e.data = data → (f e).data = data') :
    d.Placed (d'.modify id f) frame id data' := by
  have hlinks := children_modify d' id hchildren
  refine
    { wellFormed := hplaced.wellFormed.modify id hparent hchildren
      origin := hplaced.origin
      data_self := ?_
      data_other := ?_
      children_parent := ?_
      children_other := ?_ }
  · have hself := hplaced.data_self
    rw [data?_eq, Option.map_eq_some_iff] at hself
    obtain ⟨e, he, heq⟩ := hself
    rw [data?_eq, entry?_modify, if_pos rfl, he]
    simp [hdata e heq]
  · intro x hx
    rw [data?_eq, entry?_modify, if_neg hx, ← data?_eq, hplaced.data_other x hx]
  · rw [hlinks, hplaced.children_parent]
  · intro x hx
    rw [hlinks, hplaced.children_other x hx]

end Dom

/-! ## The two steps that place a node -/

namespace Patcher

open Dom

variable {d : Dom}

/-- A child that is found stands from the start on, at the index it is found with. -/
theorem findFrom?_eq_some {parent : NodeId} {start index : Nat} {p : LiveData → Bool} {id : NodeId}
    (hfind : findFrom? d parent start p = some (index, id)) :
    start ≤ index ∧ (d.children parent)[index]? = some id ∧
      ∃ data, d.data? id = some data ∧ p data = true := by
  unfold findFrom? at hfind
  rw [Option.map_eq_some_iff] at hfind
  obtain ⟨⟨id', index'⟩, hfound, heq⟩ := hfind
  cases heq
  have hmem := List.mem_of_find?_eq_some hfound
  have hp := List.find?_some hfound
  obtain ⟨k, hk, hget⟩ := List.mem_iff_getElem.mp hmem
  simp only [List.getElem_drop, List.getElem_zipIdx, Prod.mk.injEq, Nat.zero_add] at hget
  refine ⟨by omega, ?_, ?_⟩
  · rw [← hget.2, List.getElem?_eq_some_iff]
    exact ⟨_, hget.1⟩
  · cases hdata : d.data? id with
    | none => simp [hdata] at hp
    | some data => exact ⟨data, rfl, by simpa [hdata] using hp⟩

theorem isElementWith_eq_true {tag key : String} {data : LiveData}
    (h : isElementWith tag key data = true) :
    ∃ attrs, data = .element { tag, key := some key, attrs } := by
  cases data with
  | element e =>
    obtain ⟨tag', key', attrs⟩ := e
    simp only [isElementWith, Bool.and_eq_true, beq_iff_eq] at h
    exact ⟨attrs, by rw [h.1, h.2]⟩
  | text content => cases h
  | comment content => cases h

theorem slots_size_le_place (d : Dom) (summary : PatchSummary) (frame : Cursor)
    (tag key : String) : d.slots.size ≤ (place d summary frame tag key).2.1.slots.size := by
  unfold place
  split
  · split
    · exact Nat.le_refl _
    · exact (slots_size_insertChild d _ _ _).ge
  · exact (slots_size_le_alloc d _).trans (slots_size_insertChild _ _ _ _).ge

/-- An element with the tag and the key is found or made, and placed at the cursor. -/
theorem placed_place (h : d.WellFormed) {frame : Cursor} (hparent : d.isLive frame.parent = true)
    (hnext : frame.next ≤ (d.children frame.parent).length) (summary : PatchSummary)
    (tag key : String)
    (hsize : (place d summary frame tag key).2.1.slots.size ≤ maxSlots) :
    ∃ attrs, d.Placed (place d summary frame tag key).2.1 frame (place d summary frame tag key).1
      (.element { tag, key := some key, attrs }) := by
  unfold place at hsize ⊢
  split
  · next index id hfind =>
    obtain ⟨hle, hget, data, hdata, hmatch⟩ := findFrom?_eq_some hfind
    obtain ⟨attrs, rfl⟩ := isElementWith_eq_true hmatch
    refine ⟨attrs, ?_⟩
    split
    · next heq => exact placed_at_cursor h (heq ▸ hget) hdata
    · refine placed_move h hdata hnext ?_
      rw [List.mem_drop_iff_getElem]
      obtain ⟨hlt, hget⟩ := List.getElem?_eq_some_iff.mp hget
      exact ⟨index - frame.next, by omega, by simpa [Nat.add_sub_cancel' hle] using hget⟩
  · next hfind =>
    rw [hfind] at hsize
    refine ⟨[], placed_alloc h _ ?_ hparent hnext⟩
    rwa [slots_size_insertChild] at hsize

/-- To open an element is to place it and to enter it. -/
theorem openElement_spec {p : Patcher} {frame : Cursor} {outer : List Cursor} {tag key : String}
    {attrs : List Attribute} (h : p.dom.WellFormed) (hfault : p.fault = none)
    (hframes : p.frames = frame :: outer) (hparent : p.dom.isLive frame.parent = true)
    (hnext : frame.next ≤ (p.dom.children frame.parent).length)
    (hsize : (openElement tag key attrs p).dom.slots.size ≤ maxSlots) :
    ∃ id, p.dom.Placed (openElement tag key attrs p).dom frame id
        (.element { tag, key := some key, attrs }) ∧
      (openElement tag key attrs p).frames =
        { parent := id } :: { frame with next := frame.next + 1 } :: outer ∧
      (openElement tag key attrs p).fault = none := by
  simp only [openElement, hfault, hframes, Option.isSome_none, Bool.false_eq_true, if_false]
    at hsize ⊢
  rw [slots_size_modifyElement] at hsize
  obtain ⟨old, hplaced⟩ := placed_place h hparent hnext p.summary tag key hsize
  refine ⟨_, hplaced.modify ?_ ?_ ?_, rfl, trivial⟩
  · intro e
    split <;> rfl
  · intro e
    split <;> rfl
  · intro e he
    rw [he]

/-- A text is placed: the text at the cursor with other content, or a new one. -/
theorem text_spec {p : Patcher} {frame : Cursor} {outer : List Cursor} {content : String}
    (h : p.dom.WellFormed) (hfault : p.fault = none) (hframes : p.frames = frame :: outer)
    (hparent : p.dom.isLive frame.parent = true)
    (hnext : frame.next ≤ (p.dom.children frame.parent).length)
    (hsize : (text content p).dom.slots.size ≤ maxSlots) :
    ∃ id, p.dom.Placed (text content p).dom frame id (.text content) ∧
      (text content p).frames = { frame with next := frame.next + 1 } :: outer ∧
      (text content p).fault = none := by
  simp only [text, hfault, hframes, Option.isSome_none, Bool.false_eq_true, if_false]
    at hsize ⊢
  split
  · next id hreuse =>
    have hcursor : (p.dom.children frame.parent)[frame.next]? = some id ∧
        ∃ old, p.dom.data? id = some (.text old) := by
      split at hreuse
      · next found hget =>
        split at hreuse
        · next old hdata =>
          cases hreuse
          exact ⟨hget, old, hdata⟩
        · cases hreuse
      · cases hreuse
    obtain ⟨hget, old, hdata⟩ := hcursor
    refine ⟨id, (placed_at_cursor h hget hdata).modify ?_ ?_ ?_, rfl, rfl⟩
    · intro e
      unfold setText
      split <;> rfl
    · intro e
      unfold setText
      split <;> rfl
    · intro e he
      simp [setText, he]
  · next hnone =>
    rw [hnone] at hsize
    refine ⟨_, placed_alloc h _ ?_ hparent hnext, rfl, rfl⟩
    rwa [slots_size_insertChild] at hsize

end Patcher
end LiveMarkup
