import LiveMarkup.Proofs.Dom.Growth
import LiveMarkup.Proofs.Dom.Release

/-!
# Generations of slots

What an operation does to a slot is one of three things: the slot keeps its node or stays empty, it
is filled under the generation that it has, or it is freed and goes on to the next generation.  Each
part of an operation either fills slots or frees slots, and no slot twice.

Main definitions:

- `Dom.generation`, `Dom.filled`: a slot by its index.
- `Dom.Fills`: slots are filled at most.
- `Dom.Frees`: slots are freed at most, each of them once.

Main results:

- `Dom.isLive_iff_filled`: what makes a handle live.
- `Dom.fills_alloc`, `Dom.Fills.modify`, `Dom.Fills.insertChild`, `Dom.fills_importUnder`: creating,
  changing, moving and importing nodes only fills slots.
- `Dom.frees_cut`: cutting off children only frees slots.
- `Patcher.fills_openElement`, `Patcher.fills_text`, `Patcher.frees_closeElement`,
  `Patcher.frees_finish`: the steps of a patch.
-/

namespace LiveMarkup
namespace Dom

variable {d d' d₁ : Dom}

/-! ## A slot -/

/-- The generation of a slot; a slot that is still to be made has the first one. -/
def generation (d : Dom) (index : Nat) : UInt32 :=
  ((d.slots[index]?).map (·.generation)).getD 0

/-- Whether a slot holds a node. -/
def filled (d : Dom) (index : Nat) : Bool :=
  ((d.slots[index]?).bind (·.entry)).isSome

/-- A handle is live when its slot is filled under its generation. -/
theorem isLive_iff_filled {id : NodeId} :
    d.isLive id = true ↔ d.filled id.index = true ∧ d.generation id.index = id.generation := by
  unfold isLive entry? filled generation
  cases d.slots[id.index]? with
  | none => simp
  | some slot =>
    by_cases h : slot.generation = id.generation <;> simp [h]

/-- The handle of a filled slot is live. -/
theorem isLive_of_filled {index : Nat} (h : d.filled index = true) :
    d.isLive ⟨index, d.generation index⟩ = true :=
  isLive_iff_filled.mpr ⟨h, rfl⟩

/-- Writing to one slot sets its generation and leaves those of the others. -/
theorem generation_of_slots_set {index : Nat} {slot : Slot}
    (hslots : d'.slots = d.slots.setIfInBounds index slot) (hindex : index < d.slots.size)
    (other : Nat) :
    d'.generation other = if other = index then slot.generation else d.generation other := by
  by_cases h : other = index
  · subst h
    simp [generation, hslots, hindex]
  · simp [generation, hslots, Array.getElem?_setIfInBounds_ne (Ne.symm h), h]

/-- Writing to one slot decides whether it is filled and leaves the others as they were. -/
theorem filled_of_slots_set {index : Nat} {slot : Slot}
    (hslots : d'.slots = d.slots.setIfInBounds index slot) (hindex : index < d.slots.size)
    (other : Nat) :
    d'.filled other = if other = index then slot.entry.isSome else d.filled other := by
  by_cases h : other = index
  · subst h
    simp [filled, hslots, hindex]
  · simp [filled, hslots, Array.getElem?_setIfInBounds_ne (Ne.symm h), h]

/-- What is done to an entry has no effect on generations. -/
theorem generation_modify (d : Dom) (id : NodeId) (f : LiveEntry → LiveEntry) (index : Nat) :
    (d.modify id f).generation index = d.generation index := by
  unfold modify
  cases hslot : d.slots[id.index]? with
  | none => rfl
  | some slot =>
    dsimp only
    split
    · rw [generation_of_slots_set rfl (index_lt_of_slot hslot)]
      split
      · next h => simp [generation, h, hslot]
      · rfl
    · rfl

/-- What is done to an entry neither fills a slot nor frees one. -/
theorem filled_modify (d : Dom) (id : NodeId) (f : LiveEntry → LiveEntry) (index : Nat) :
    (d.modify id f).filled index = d.filled index := by
  unfold modify
  cases hslot : d.slots[id.index]? with
  | none => rfl
  | some slot =>
    dsimp only
    split
    · rw [filled_of_slots_set rfl (index_lt_of_slot hslot)]
      split
      · next h => simp [filled, h, hslot]
      · rfl
    · rfl

/-! ## Filling slots -/

/-- From one tree to the other, slots are filled at most. -/
structure Fills (d d' : Dom) : Prop where
  generation_eq : ∀ index, d'.generation index = d.generation index
  filled : ∀ index, d.filled index = true → d'.filled index = true

namespace Fills

/-- Nothing needs to be filled from a document to itself. -/
theorem refl (d : Dom) : d.Fills d :=
  ⟨fun _ => rfl, fun _ h => h⟩

/-- What is filled may be filled further. -/
theorem trans {d₂ : Dom} (h₁ : d.Fills d₁) (h₂ : d₁.Fills d₂) : d.Fills d₂ where
  generation_eq := fun index => (h₂.generation_eq index).trans (h₁.generation_eq index)
  filled := fun index h => h₂.filled index (h₁.filled index h)

/-- What is live stays live. -/
theorem isLive (h : d.Fills d') {id : NodeId} (hid : d.isLive id = true) : d'.isLive id = true := by
  rw [isLive_iff_filled] at hid ⊢
  exact ⟨h.filled _ hid.1, (h.generation_eq _).trans hid.2⟩

/-- Entries may be changed after slots are filled. -/
theorem modify (h : d.Fills d') (id : NodeId) (f : LiveEntry → LiveEntry) :
    d.Fills (d'.modify id f) where
  generation_eq := by
    intro index
    rw [generation_modify, h.generation_eq]
  filled := by
    intro index hindex
    rw [filled_modify]
    exact h.filled index hindex

/-- Nodes may be taken from their parents after slots are filled. -/
theorem detach (h : d.Fills d') (id : NodeId) : d.Fills (d'.detach id) := by
  unfold Dom.detach
  split
  · exact h
  · exact (h.modify _ _).modify _ _

/-- Nodes may be put under others after slots are filled. -/
theorem insertChild (h : d.Fills d') (parent : NodeId) (index : Nat) (child : NodeId) :
    d.Fills (d'.insertChild parent index child) :=
  ((h.detach child).modify _ _).modify _ _

end Fills

/-- A new node takes an empty slot under the generation that the slot has. -/
theorem fills_alloc (d : Dom) (data : LiveData) : d.Fills (d.alloc data).2 := by
  unfold alloc
  split
  · next index free hfree =>
    cases hslot : d.slots[index]? with
    | none =>
      have hout : d.slots.size ≤ index := Array.getElem?_eq_none_iff.mp hslot
      simp only [Array.setIfInBounds_eq_of_size_le hout]
      exact ⟨fun _ => rfl, fun _ h => h⟩
    | some slot =>
      have hlt := index_lt_of_slot hslot
      constructor
      · intro other
        rw [generation_of_slots_set rfl hlt]
        split
        · next h => simp [generation, h, hslot]
        · rfl
      · intro other hother
        rw [filled_of_slots_set rfl hlt]
        split
        · rfl
        · exact hother
  · constructor
    · intro other
      by_cases h : other = d.slots.size
      · simp [generation, h]
      · simp [generation, Array.getElem?_push, h]
    · intro other hother
      by_cases h : other = d.slots.size
      · simp [filled, h]
      · simpa [filled, Array.getElem?_push, h] using hother

mutual

/-- To import a node fills slots. -/
theorem fills_importNode (d : Dom) : ∀ n : Node, d.Fills (importNode d n).2
  | .element _ _ children => (fills_alloc d _).trans (fills_importUnder _ _ children)
  | .text _ => fills_alloc d _
  | .comment _ => fills_alloc d _
  | .directive _ => .refl d

/-- Importing nodes only fills slots. -/
theorem fills_importUnder (d : Dom) (parent : NodeId) :
    ∀ ns : List Node, d.Fills (importUnder d parent ns)
  | [] => .refl d
  | n :: rest => by
    have hnode := fills_importNode d n
    rw [importUnder]
    split
    · next child d₁ hn =>
      rw [hn] at hnode
      exact (hnode.insertChild _ _ _).trans (fills_importUnder _ parent rest)
    · next d₁ hn =>
      rw [hn] at hnode
      exact hnode.trans (fills_importUnder d₁ parent rest)

end

/-! ## Freeing slots -/

/-- From one tree to the other, slots are freed at most, each of them once. -/
def Frees (d d' : Dom) : Prop :=
  ∀ index, d'.filled index = d.filled index ∧ d'.generation index = d.generation index ∨
    d.filled index = true ∧ d'.filled index = false ∧
      d'.generation index = d.generation index + 1

namespace Frees

/-- Nothing needs to be freed from a document to itself. -/
theorem refl (d : Dom) : d.Frees d :=
  fun _ => Or.inl ⟨rfl, rfl⟩

/-- What is freed may be freed further: no slot is freed twice, since none is filled between. -/
theorem trans {d₂ : Dom} (h₁ : d.Frees d₁) (h₂ : d₁.Frees d₂) : d.Frees d₂ := by
  intro index
  rcases h₁ index with ⟨hfilled₁, hgen₁⟩ | ⟨hfilled, hempty, hgen₁⟩
  · rw [← hfilled₁, ← hgen₁]
    exact h₂ index
  · -- What was freed is empty, so it cannot be freed once more.
    rcases h₂ index with ⟨hfilled₂, hgen₂⟩ | ⟨hfilled₂, -⟩
    · exact Or.inr ⟨hfilled, hfilled₂.trans hempty, hgen₂.trans hgen₁⟩
    · rw [hempty] at hfilled₂
      cases hfilled₂

/-- What is live afterwards was live before. -/
theorem isLive (h : d.Frees d') {id : NodeId} (hid : d'.isLive id = true) : d.isLive id = true := by
  rw [isLive_iff_filled] at hid ⊢
  rcases h id.index with ⟨hfilled, hgen⟩ | ⟨-, hempty, -⟩
  · exact ⟨hfilled ▸ hid.1, hgen ▸ hid.2⟩
  · rw [hempty] at hid
    cases hid.1

end Frees

/-- To change an entry frees no slot. -/
theorem frees_modify (d : Dom) (id : NodeId) (f : LiveEntry → LiveEntry) :
    d.Frees (d.modify id f) :=
  fun index => Or.inl ⟨filled_modify d id f index, generation_modify d id f index⟩

/-- To release a node frees its slot, if it was live. -/
theorem frees_release (d : Dom) (id : NodeId) : d.Frees (d.release id) := by
  unfold release
  split
  · next generation e hslot =>
    split
    · intro index
      rw [filled_of_slots_set rfl (index_lt_of_slot hslot),
        generation_of_slots_set rfl (index_lt_of_slot hslot)]
      by_cases h : index = id.index
      · right
        simp [filled, Dom.generation, h, hslot]
      · left
        simp [h]
    · exact .refl d
  · exact .refl d

/-- Steps that free slots do so one after the other. -/
theorem frees_foldl {f : Dom → NodeId → Dom} (hf : ∀ d id, Frees d (f d id)) (ids : List NodeId)
    (d : Dom) : d.Frees (ids.foldl f d) := by
  induction ids generalizing d with
  | nil => exact .refl d
  | cons id rest ih => exact (hf d id).trans (ih (f d id))

/-- Cutting off children only frees slots. -/
theorem frees_cut (d : Dom) (parent : NodeId) (next : Nat) : d.Frees (d.cut parent next) :=
  (frees_modify d parent _).trans
    (frees_foldl (fun d id => frees_foldl frees_release (d.releaseOrder d.slots.size id) d) _ _)

end Dom

/-! ## The steps of a patch -/

namespace Patcher

open Dom

/-- To put an element where a patch stands fills at most one slot. -/
theorem fills_place (d : Dom) (summary : PatchSummary) (frame : Cursor) (tag key : String) :
    d.Fills (place d summary frame tag key).2.1 := by
  unfold place
  split
  · split
    · exact .refl d
    · exact (Fills.refl d).insertChild _ _ _
  · exact (fills_alloc d _).insertChild _ _ _

/-- To open an element in a patch fills slots. -/
theorem fills_openElement (tag key : String) (attrs : List Attribute) (p : Patcher) :
    p.dom.Fills (openElement tag key attrs p).dom := by
  unfold openElement
  split
  · exact .refl _
  · split
    · exact .refl _
    · next frame outer _ => exact (fills_place p.dom p.summary frame tag key).modify _ _

/-- To put a text in a patch fills slots. -/
theorem fills_text (content : String) (p : Patcher) : p.dom.Fills (text content p).dom := by
  unfold text
  split
  · exact .refl _
  · split
    · exact .refl _
    · dsimp only
      split
      · exact (Fills.refl _).modify _ _
      · exact (fills_alloc _ _).insertChild _ _ _

/-- To close an element in a patch frees slots. -/
theorem frees_closeElement (tag : String) (p : Patcher) :
    p.dom.Frees (closeElement tag p).dom := by
  unfold closeElement
  split
  · exact .refl _
  · split
    · split
      · exact frees_cut _ _ _
      · exact .refl _
    · exact .refl _

/-- To end a patch frees slots. -/
theorem frees_finish (p : Patcher) : p.dom.Frees p.finish.2 := by
  unfold finish
  split
  · exact .refl p.dom
  · exact frees_cut _ _ _
  · exact .refl p.dom
  · exact .refl p.dom

end Patcher
end LiveMarkup
