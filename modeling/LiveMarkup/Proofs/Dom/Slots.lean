import LiveMarkup.Dom.Basic
import Mathlib.Data.List.Nodup

/-!
# Slots and handles

Every operation on the live tree comes down to three changes of slots: a node is changed, a slot is
filled, a slot is freed.  This module says what each of them does to what handles name, and that
the free list always holds exactly the empty slots.

Main definitions:

- `Dom.maxSlots`: how many slots handles can tell apart.
- `Dom.FreeExact`: the free list holds the empty slots, each once.

Main results:

- `Dom.entry?_modify`, `Dom.entry?_alloc`, `Dom.entry?_release`: what handles name afterwards.
- `Dom.entry?_alloc_fresh`: the handle of a new node was not live before.
- `Dom.FreeExact.modify`, `Dom.FreeExact.alloc`, `Dom.FreeExact.release`: all three changes keep
  the free list exact.
-/

namespace LiveMarkup

/-- Handles with the same index and generation are the same. -/
theorem NodeId.eq_of_index_eq_of_generation_eq {a b : NodeId} (hindex : a.index = b.index)
    (hgeneration : a.generation = b.generation) : a = b := by
  cases a
  cases b
  simp_all

namespace Dom

/-! ## Slots as seen through handles -/

/-- What a handle names is decided by its slot. -/
theorem entry?_of_slot {d : Dom} {id : NodeId} {slot : Slot}
    (hslot : d.slots[id.index]? = some slot) :
    d.entry? id = if slot.generation = id.generation then slot.entry else none := by
  simp [Dom.entry?, hslot]

/-- A handle is live when its slot is filled under its generation. -/
theorem entry?_eq_some_iff {d : Dom} {id : NodeId} {e : LiveEntry} :
    d.entry? id = some e ↔
      d.slots[id.index]? = some { generation := id.generation, entry := some e } := by
  cases hslot : d.slots[id.index]? with
  | none => simp [Dom.entry?, hslot]
  | some slot =>
    obtain ⟨generation, entry⟩ := slot
    rw [Dom.entry?_of_slot hslot]
    by_cases h : generation = id.generation <;> simp [h]

/-- After one slot is replaced, handles of other slots name what they named before. -/
theorem entry?_of_slots_set {d d' : Dom} {index : Nat} {slot : Slot}
    (hslots : d'.slots = d.slots.setIfInBounds index slot) (hindex : index < d.slots.size)
    (x : NodeId) :
    d'.entry? x =
      if x.index = index then if slot.generation = x.generation then slot.entry else none
      else d.entry? x := by
  by_cases hx : x.index = index
  · have hget : d'.slots[x.index]? = some slot := by
      rw [hslots, hx]
      simp [hindex]
    rw [Dom.entry?_of_slot hget, if_pos hx]
  · have hget : d'.slots[x.index]? = d.slots[x.index]? := by
      rw [hslots]
      exact Array.getElem?_setIfInBounds_ne (Ne.symm hx)
    simp only [Dom.entry?, hget, if_neg hx]

/-- After a slot is added, handles of other slots name what they named before. -/
theorem entry?_of_slots_push {d d' : Dom} {slot : Slot} (hslots : d'.slots = d.slots.push slot)
    (x : NodeId) :
    d'.entry? x =
      if x.index = d.slots.size then if slot.generation = x.generation then slot.entry else none
      else d.entry? x := by
  by_cases hx : x.index = d.slots.size
  · have hget : d'.slots[x.index]? = some slot := by rw [hslots, hx, Array.getElem?_push_size]
    rw [Dom.entry?_of_slot hget, if_pos hx]
  · have hget : d'.slots[x.index]? = d.slots[x.index]? := by
      rw [hslots, Array.getElem?_push, if_neg hx]
    simp only [Dom.entry?, hget, if_neg hx]

theorem index_lt_of_slot {d : Dom} {index : Nat} {slot : Slot}
    (hslot : d.slots[index]? = some slot) : index < d.slots.size :=
  (Array.getElem?_eq_some_iff.mp hslot).1

/-- Two handles of one slot that are both live are equal. -/
theorem eq_of_index_eq_of_filled {d : Dom} {a b : NodeId} {ea eb : LiveEntry}
    (ha : d.entry? a = some ea) (hb : d.entry? b = some eb) (hindex : a.index = b.index) :
    a = b := by
  rw [Dom.entry?_eq_some_iff] at ha hb
  rw [hindex, hb] at ha
  simp only [Option.some.injEq, Slot.mk.injEq] at ha
  exact NodeId.eq_of_index_eq_of_generation_eq hindex ha.1.symm

/-! ## Changing a node -/

/-- To change an entry adds no slot. -/
theorem slots_size_modify (d : Dom) (id : NodeId) (f : LiveEntry → LiveEntry) :
    (d.modify id f).slots.size = d.slots.size := by
  unfold modify
  cases d.slots[id.index]? with
  | none => rfl
  | some slot =>
    dsimp only
    split <;> simp

/-- To change an entry leaves the free slots. -/
theorem free_modify (d : Dom) (id : NodeId) (f : LiveEntry → LiveEntry) :
    (d.modify id f).free = d.free := by
  unfold modify
  cases d.slots[id.index]? with
  | none => rfl
  | some slot =>
    dsimp only
    split <;> rfl

theorem lastPatch_modify (d : Dom) (id : NodeId) (f : LiveEntry → LiveEntry) :
    (d.modify id f).lastPatch = d.lastPatch := by
  unfold modify
  cases d.slots[id.index]? with
  | none => rfl
  | some slot =>
    dsimp only
    split <;> rfl

/-- A change of a node is seen through its own handle only. -/
theorem entry?_modify (d : Dom) (id : NodeId) (f : LiveEntry → LiveEntry) (x : NodeId) :
    entry? (d.modify id f) x = if x = id then (d.entry? id).map f else d.entry? x := by
  cases hslot : d.slots[id.index]? with
  | none =>
    have hid : d.entry? id = none := by simp [Dom.entry?, hslot]
    have hmod : d.modify id f = d := by simp [modify, hslot]
    rw [hmod]
    split
    · next h => rw [h, hid, Option.map_none]
    · rfl
  | some slot =>
    by_cases hg : slot.generation = id.generation
    · have hslots : (d.modify id f).slots =
          d.slots.setIfInBounds id.index { slot with entry := slot.entry.map f } := by
        simp [modify, hslot, hg]
      rw [Dom.entry?_of_slots_set hslots (index_lt_of_slot hslot), entry?_of_slot hslot, if_pos hg]
      by_cases hx : x = id
      · simp [hx, hg]
      · rw [if_neg hx]
        by_cases hi : x.index = id.index
        · have hxg : slot.generation ≠ x.generation := fun h =>
            hx (NodeId.eq_of_index_eq_of_generation_eq hi (h.symm.trans hg))
          have hget : d.slots[x.index]? = some slot := by rw [hi, hslot]
          rw [if_pos hi, if_neg hxg, entry?_of_slot hget, if_neg hxg]
        · rw [if_neg hi]
    · have hid : d.entry? id = none := by rw [Dom.entry?_of_slot hslot, if_neg hg]
      have hmod : d.modify id f = d := by simp [modify, hslot, hg]
      rw [hmod]
      split
      · next h => rw [h, hid, Option.map_none]
      · rfl

/-! ## Freeing a slot -/

/-- Only the handle of a freed node stops naming a node. -/
theorem entry?_release (d : Dom) (id x : NodeId) :
    entry? (d.release id) x = if x = id then none else d.entry? x := by
  cases hid : d.entry? id with
  | none =>
    have hrel : d.release id = d := by
      unfold release
      split
      · next generation entry hslot =>
        rw [Dom.entry?_of_slot hslot] at hid
        by_cases hg : generation = id.generation
        · simp [hg] at hid
        · rw [if_neg hg]
      · rfl
    rw [hrel]
    split
    · next h => rw [h, hid]
    · rfl
  | some e =>
    have hslot := entry?_eq_some_iff.mp hid
    have hslots : (d.release id).slots =
        d.slots.setIfInBounds id.index { generation := id.generation + 1, entry := none } := by
      simp [release, hslot]
    rw [Dom.entry?_of_slots_set hslots (index_lt_of_slot hslot)]
    by_cases hx : x = id
    · simp [hx]
    · rw [if_neg hx]
      by_cases hi : x.index = id.index
      · rw [if_pos hi, ite_self]
        cases hxe : d.entry? x with
        | none => rfl
        | some ex => exact absurd (eq_of_index_eq_of_filled hxe hid hi) hx
      · rw [if_neg hi]

/-- To release a node takes no slot away. -/
theorem slots_size_release (d : Dom) (id : NodeId) :
    (d.release id).slots.size = d.slots.size := by
  unfold release
  split
  · split <;> simp
  · rfl

/-! ## The free list -/

/-- The free list holds the empty slots, each of them once. -/
structure FreeExact (d : Dom) : Prop where
  nodup : d.free.Nodup
  mem_iff : ∀ index, index ∈ d.free ↔ ∃ slot, d.slots[index]? = some slot ∧ slot.entry = none

/-- In a document without slots, none is free. -/
theorem freeExact_empty : FreeExact {} where
  nodup := List.nodup_nil
  mem_iff := by simp

/-- To change an entry leaves the free slots exact. -/
theorem FreeExact.modify {d : Dom} (h : d.FreeExact) (id : NodeId) (f : LiveEntry → LiveEntry) :
    (d.modify id f).FreeExact where
  nodup := by
    rw [free_modify]
    exact h.nodup
  mem_iff := by
    intro index
    rw [free_modify, h.mem_iff index]
    unfold Dom.modify
    cases hslot : d.slots[id.index]? with
    | none => rfl
    | some slot =>
      dsimp only
      split
      · by_cases hi : id.index = index
        · subst hi
          simp [Array.getElem?_setIfInBounds_self_of_lt (index_lt_of_slot hslot), hslot]
        · simp [Array.getElem?_setIfInBounds_ne hi]
      · rfl

/-- To release a node leaves the free slots exact, and its own is one of them. -/
theorem FreeExact.release {d : Dom} (h : d.FreeExact) (id : NodeId) : (d.release id).FreeExact := by
  unfold Dom.release
  split
  · next generation e hslot =>
    split
    · have hnotin : id.index ∉ d.free := by
        rw [h.mem_iff]
        rintro ⟨slot, hget, hnone⟩
        rw [hslot] at hget
        cases hget
        simp at hnone
      refine ⟨List.nodup_cons.mpr ⟨hnotin, h.nodup⟩, ?_⟩
      intro index
      by_cases hi : id.index = index
      · subst hi
        simp [index_lt_of_slot hslot]
      · simp [Array.getElem?_setIfInBounds_ne hi, Ne.symm hi, h.mem_iff]
    · exact h
  · exact h

/-! ## Filling a slot -/

/-- The number of slots that handles can tell apart: two to the power of thirty-two. -/
def maxSlots : Nat := Nat.pow 2 32

theorem maxSlots_eq : maxSlots = maxIndex + 1 :=
  rfl

/-- To make a node takes no slot away. -/
theorem slots_size_le_alloc (d : Dom) (data : LiveData) :
    d.slots.size ≤ (d.alloc data).2.slots.size := by
  unfold alloc
  split <;> simp

/-- The handle of a new node was not live before. -/
theorem entry?_alloc_fresh {d : Dom} (h : d.FreeExact) (data : LiveData)
    (hsize : (d.alloc data).2.slots.size ≤ maxSlots) : d.entry? (d.alloc data).1 = none := by
  unfold alloc at hsize ⊢
  split at hsize
  · next index free hfree =>
    obtain ⟨slot, hslot, hnone⟩ := (h.mem_iff index).mp (by simp [hfree])
    simp [Dom.entry?, hslot, hnone]
  · next hfree =>
    have hlt : d.slots.size ≤ maxIndex := by
      rw [maxSlots_eq, Array.size_push] at hsize
      omega
    simp [Dom.entry?, Nat.min_eq_left hlt]

/-- A new node has no links, and every other handle names what it named before. -/
theorem entry?_alloc {d : Dom} (h : d.FreeExact) (data : LiveData)
    (hsize : (d.alloc data).2.slots.size ≤ maxSlots) (x : NodeId) :
    entry? (d.alloc data).2 x = if x = (d.alloc data).1 then some { data } else d.entry? x := by
  unfold alloc at hsize ⊢
  split at hsize
  · next index free hfree =>
    obtain ⟨slot, hslot, hnone⟩ := (h.mem_iff index).mp (by simp [hfree])
    simp only [hslot, Option.map_some, Option.getD_some]
    rw [Dom.entry?_of_slots_set rfl (index_lt_of_slot hslot)]
    by_cases hi : x.index = index
    · subst hi
      by_cases hg : slot.generation = x.generation
      · have hx : x = { index := x.index, generation := slot.generation } :=
          NodeId.eq_of_index_eq_of_generation_eq rfl hg.symm
        simp [hg]
      · have hx : x ≠ { index := x.index, generation := slot.generation } := fun e => hg (by rw [e])
        rw [if_pos rfl, if_neg hg, if_neg hx, entry?_of_slot hslot, if_neg hg]
    · have hx : x ≠ { index, generation := slot.generation } := fun e => hi (by rw [e])
      rw [if_neg hi, if_neg hx]
  · next hfree =>
    have hlt : d.slots.size ≤ maxIndex := by
      rw [maxSlots_eq, Array.size_push] at hsize
      omega
    simp only [Nat.min_eq_left hlt]
    rw [Dom.entry?_of_slots_push rfl]
    by_cases hi : x.index = d.slots.size
    · by_cases hg : 0 = x.generation
      · have hx : x = { index := d.slots.size, generation := 0 } :=
          NodeId.eq_of_index_eq_of_generation_eq hi hg.symm
        simp [hx]
      · have hx : x ≠ { index := d.slots.size, generation := 0 } := fun e => hg (by rw [e])
        have hnone : d.entry? x = none := by simp [Dom.entry?, hi]
        rw [if_pos hi, if_neg hg, if_neg hx, hnone]
    · have hx : x ≠ { index := d.slots.size, generation := 0 } := fun e => hi (by rw [e])
      rw [if_neg hi, if_neg hx]

/-- To make a node leaves the free slots exact. -/
theorem FreeExact.alloc {d : Dom} (h : d.FreeExact) (data : LiveData) :
    (d.alloc data).2.FreeExact := by
  unfold Dom.alloc
  split
  · next index free hfree =>
    have hnodup := hfree ▸ h.nodup
    obtain ⟨slot, hslot, -⟩ := (h.mem_iff index).mp (by simp [hfree])
    refine ⟨(List.nodup_cons.mp hnodup).2, ?_⟩
    intro other
    by_cases hi : index = other
    · subst hi
      simp [index_lt_of_slot hslot, (List.nodup_cons.mp hnodup).1]
    · have hmem := h.mem_iff other
      rw [hfree, List.mem_cons, or_iff_right (Ne.symm hi)] at hmem
      simp [Array.getElem?_setIfInBounds_ne hi, hmem]
  · next hfree =>
    refine ⟨by simp [hfree], ?_⟩
    intro index
    have hmem := h.mem_iff index
    rw [hfree] at hmem ⊢
    simp only [List.not_mem_nil, false_iff, not_exists, not_and] at hmem ⊢
    intro slot hslot
    rw [Array.getElem?_push] at hslot
    split at hslot
    · simp only [Option.some.injEq] at hslot
      simp [← hslot]
    · exact hmem slot hslot

end Dom
end LiveMarkup
