import LiveMarkup.Proofs.Dom.PatchRun
import Mathlib.Data.Set.Card

/-!
# Reachable trees

A tree is reachable if some sequence of operations leads to it from the empty tree.  The operations
may be given any handles, also stale ones, and patches any stream of instructions; those that fail
count too.  The well-formedness of reachable trees is shown operation by operation.

Main definitions:

- `Dom.Operation`, `Dom.perform`: the operations of the live tree.
- `Dom.Reachable`: the trees they lead to.

Main results:

- `Dom.WellFormed.perform`: an operation keeps the tree well-formed.
- `Dom.Reachable.wellFormed`: reachable trees are well-formed.
- `Dom.Reachable.slots_and_links`: what this means for the slots and for the links of the nodes.
- `Dom.Reachable.patch_converges`: a balanced stream leaves the forest that it denotes.
-/

namespace LiveMarkup
namespace Dom

/-! ## Operations -/

/-- An operation on the live tree with its arguments. -/
inductive Operation where
  | createElement (tag : String)
  | createText (content : String)
  | setAttribute (id : NodeId) (name value : String)
  | appendChild (parent child : NodeId)
  | remove (id : NodeId)
  | parseInto (parser : MarkupParser) (parent : NodeId) (markup : String)
  | patch (target : NodeId) (stream : List Instruction)

/-- The tree after an operation that changes nothing if it fails. -/
def after (d : Dom) : Except DomError Dom → Dom
  | .ok d' => d'
  | .error _ => d

/-- The tree after an operation, whether it succeeds or fails. -/
def perform (d : Dom) : Operation → Dom
  | .createElement tag => (d.createElement tag).2
  | .createText content => (d.createText content).2
  | .setAttribute id name value => d.after (d.setAttribute id name value)
  | .appendChild parent child => d.after (d.appendChild parent child)
  | .remove id => d.after (d.remove id)
  | .parseInto parser parent markup => d.after ((parseInto parser d parent markup).map (·.2))
  | .patch target stream => (d.patch target stream).2

/-- Some sequence of operations leads to the tree from the empty one. -/
inductive Reachable : Dom → Prop where
  | empty : Reachable {}
  | perform {d : Dom} (h : Reachable d) (op : Operation) : Reachable (d.perform op)

variable {d : Dom}

/-! ## One operation -/

/-- Markup that can be parsed is imported under its parent. -/
theorem parseInto_eq_ok {parser : MarkupParser} {parent : NodeId} {markup : String}
    {added : List NodeId} {d' : Dom} (hparse : parseInto parser d parent markup = .ok (added, d')) :
    d.isElement parent = true ∧ ∃ ns : List Node, d' = importUnder d parent ns := by
  unfold parseInto at hparse
  split at hparse
  · cases hparse
  · next hrequire =>
    split at hparse
    · cases hparse
    · next f hf =>
      refine ⟨requireElement_eq_ok_iff.mp hrequire, f.forest Fragment.root, ?_⟩
      rw [importFragment, Except.ok.injEq] at hparse
      rw [← importNodes_snd, hparse]

/-- A node is appended to an element that is not below it. -/
theorem appendChild_eq_ok {parent child : NodeId} {d' : Dom}
    (happend : d.appendChild parent child = .ok d') :
    d.isElement parent = true ∧ d.isLive child = true ∧ d.contains child parent = false ∧
      d' = d.insertChild parent (d.children parent).length child := by
  unfold appendChild at happend
  split at happend
  · cases happend
  · next hrequire =>
    split at happend
    · cases happend
    · next hchild =>
      split at happend
      · cases happend
      · next hcontains =>
        cases happend
        refine ⟨requireElement_eq_ok_iff.mp hrequire, ?_, ?_, rfl⟩
        · simpa using hchild
        · simpa using hcontains

/-- No operation takes a slot away. -/
theorem slots_size_le_perform (d : Dom) (op : Operation) :
    d.slots.size ≤ (d.perform op).slots.size := by
  cases op with
  | createElement tag => exact slots_size_le_alloc d _
  | createText content => exact slots_size_le_alloc d _
  | setAttribute id name value =>
    simp only [perform, setAttribute]
    split
    · exact (slots_size_modifyElement d id _).ge
    · exact Nat.le_refl _
  | appendChild parent child =>
    simp only [perform]
    cases happend : d.appendChild parent child with
    | error e => exact Nat.le_refl _
    | ok d' =>
      obtain ⟨-, -, -, rfl⟩ := appendChild_eq_ok happend
      exact (slots_size_insertChild d _ _ _).ge
  | remove id =>
    simp only [perform, remove]
    split
    · exact (slots_size_detach d id).ge
    · exact Nat.le_refl _
  | parseInto parser parent markup =>
    simp only [perform]
    cases hparse : parseInto parser d parent markup with
    | error e => exact Nat.le_refl _
    | ok result =>
      obtain ⟨added, d'⟩ := result
      obtain ⟨-, ns, rfl⟩ := parseInto_eq_ok hparse
      exact slots_size_le_importUnder d parent ns
  | patch target stream => exact slots_size_le_patch d target stream

/-- An operation keeps the tree well-formed. -/
theorem WellFormed.perform (h : d.WellFormed) (op : Operation)
    (hsize : (d.perform op).slots.size ≤ maxSlots) : (d.perform op).WellFormed := by
  cases op with
  | createElement tag => exact h.alloc _ hsize
  | createText content => exact h.alloc _ hsize
  | setAttribute id name value =>
    simp only [Dom.perform, setAttribute]
    split
    · exact h.modifyElement id _
    · exact h
  | appendChild parent child =>
    simp only [Dom.perform]
    cases happend : d.appendChild parent child with
    | error e => exact h
    | ok d' =>
      obtain ⟨hparent, hchild, hcontains, rfl⟩ := appendChild_eq_ok happend
      have hlive := isLive_of_isElement hparent
      refine h.insertChild hlive hchild ?_ _
      intro hbelow
      rw [(h.contains_iff hlive).mpr hbelow] at hcontains
      cases hcontains
  | remove id =>
    simp only [Dom.perform, remove]
    split
    · exact h.detach id
    · exact h
  | parseInto parser parent markup =>
    simp only [Dom.perform] at hsize ⊢
    cases hparse : parseInto parser d parent markup with
    | error e => exact h
    | ok result =>
      obtain ⟨added, d'⟩ := result
      obtain ⟨hparent, ns, rfl⟩ := parseInto_eq_ok hparse
      rw [hparse] at hsize
      exact (importUnder_spec h (isLive_of_isElement hparent) ns hsize).wellFormed
  | patch target stream => exact h.patch target stream hsize

/-! ## Sequences of operations -/

/-- Reachable trees are well-formed as long as they have not outgrown the handles. -/
theorem Reachable.wellFormed (h : d.Reachable) (hsize : d.slots.size ≤ maxSlots) :
    d.WellFormed := by
  induction h with
  | empty => exact wellFormed_empty
  | @perform d _ op ih => exact (ih ((slots_size_le_perform d op).trans hsize)).perform op hsize

theorem Reachable.foldl_perform (h : d.Reachable) (ops : List Operation) :
    (ops.foldl Dom.perform d).Reachable := by
  induction ops generalizing d with
  | nil => exact h
  | cons op rest ih => exact ih (h.perform op)

/-! ## Live nodes and filled slots -/

/-- The slots of the live nodes are those that are not free. -/
theorem FreeExact.image_index (h : d.FreeExact) :
    NodeId.index '' {id | d.isLive id = true} =
      (Finset.range d.slots.size \ d.free.toFinset : Finset Nat) := by
  ext index
  simp only [Set.mem_image, Set.mem_ofPred_eq, Finset.coe_sdiff, Set.mem_sdiff, Finset.mem_coe,
    Finset.mem_range, List.mem_toFinset, h.mem_iff]
  constructor
  · rintro ⟨id, hlive, rfl⟩
    obtain ⟨e, he⟩ := isLive_iff.mp hlive
    have hslot := Dom.entry?_eq_some_iff.mp he
    refine ⟨index_lt_of_slot hslot, ?_⟩
    rintro ⟨slot, hget, hempty⟩
    rw [hslot] at hget
    cases hget
    cases hempty
  · rintro ⟨hlt, hfilled⟩
    have hget : d.slots[index]? = some d.slots[index] := Array.getElem?_eq_getElem hlt
    cases hentry : d.slots[index].entry with
    | none => exact absurd ⟨_, hget, hentry⟩ hfilled
    | some e =>
      refine ⟨⟨index, d.slots[index].generation⟩, isLive_iff.mpr ⟨e, ?_⟩, rfl⟩
      rw [Dom.entry?_of_slot hget, if_pos rfl, hentry]

/-- The size of a tree is the number of its live nodes. -/
theorem FreeExact.encard_isLive (h : d.FreeExact) :
    {id | d.isLive id = true}.encard = d.size := by
  have hinj : Set.InjOn NodeId.index {id | d.isLive id = true} := by
    intro a ha b hb hindex
    obtain ⟨ea, hea⟩ := isLive_iff.mp ha
    obtain ⟨eb, heb⟩ := isLive_iff.mp hb
    exact eq_of_index_eq_of_filled hea heb hindex
  have hsub : d.free.toFinset ⊆ Finset.range d.slots.size := by
    intro index hindex
    obtain ⟨slot, hget, -⟩ := (h.mem_iff index).mp (List.mem_toFinset.mp hindex)
    exact Finset.mem_range.mpr (index_lt_of_slot hget)
  rw [← hinj.encard_image, h.image_index, Set.encard_coe_eq_coe_finsetCard,
    Finset.card_sdiff_of_subset hsub, Finset.card_range, List.toFinset_card_of_nodup h.nodup, size]

/-- In a reachable tree the free list holds exactly the empty slots, each once, so the size is the
number of live nodes.  Every child is live, is listed once by one node only, and records that node
as its parent; every recorded parent is live and lists the node; and no way up from a node leads
back to it. -/
theorem Reachable.slots_and_links (h : d.Reachable) (hsize : d.slots.size ≤ maxSlots) :
    d.free.Nodup ∧
      (∀ index, index ∈ d.free ↔ ∃ slot, d.slots[index]? = some slot ∧ slot.entry = none) ∧
      {id | d.isLive id = true}.encard = d.size ∧
      (∀ p c, c ∈ d.children p → d.isLive c = true ∧ (d.children p).count c = 1 ∧
        (∀ q, c ∈ d.children q → q = p) ∧ d.parent? c = some p) ∧
      (∀ p c, d.parent? c = some p → d.isLive p = true ∧ c ∈ d.children p) ∧
      (∀ id, ¬ Relation.TransGen d.IsChild id id) := by
  have hwf := h.wellFormed hsize
  refine ⟨hwf.nodup, hwf.mem_iff, hwf.encard_isLive, ?_, ?_, ?_⟩
  · intro p c hc
    have hparent := hwf.parent_of_mem hc
    refine ⟨hwf.isLive_child hc, ?_, ?_, hparent⟩
    · exact List.count_eq_one_of_mem (hwf.children_nodup p) hc
    · intro q hq
      exact Option.some.inj ((hwf.parent_of_mem hq).symm.trans hparent)
  · intro p c hp
    exact ⟨hwf.isLive_parent hp, hwf.mem_of_parent hp⟩
  · intro id hcycle
    rw [← Relation.transGen_swap] at hcycle
    exact hwf.acyclic.transGen.irrefl.irrefl id hcycle

/-- A text moved into a list, a patch that frees it and stops at an unbalanced close, and a stale
handle: the slot of the text is filled again. -/
theorem Reachable.slots_and_links_after_stopped_patch :
    let d := [Operation.createElement "ul", .createText "old", .appendChild ⟨0, 0⟩ ⟨1, 0⟩,
      .patch ⟨0, 0⟩ [.openElement "li" "#a" [], .text "x", .closeElement "li"],
      .patch ⟨0, 0⟩ [.text "y", .closeElement "ul"],
      .setAttribute ⟨1, 0⟩ "id" "stale"].foldl Dom.perform {}
    d.slots.size ≤ maxSlots ∧ d.isLive ⟨1, 0⟩ = false ∧
      {id | d.isLive id = true}.encard = d.size ∧
      d.parent? ⟨1, 1⟩ = some ⟨0, 0⟩ ∧ (d.children ⟨0, 0⟩).count ⟨1, 1⟩ = 1 := by
  intro d
  have hsize : d.slots.size ≤ maxSlots := by decide
  have hlinks := (Reachable.empty.foldl_perform _).slots_and_links hsize
  have hmem : ⟨1, 1⟩ ∈ d.children ⟨0, 0⟩ := by decide
  have hchild := hlinks.2.2.2.1 _ _ hmem
  exact ⟨hsize, by decide, hlinks.2.2.1, hchild.2.2.2, hchild.2.1⟩

/-! ## Convergence -/

/-- A balanced stream followed below a live element of a reachable tree succeeds, and what then
lies below the element is exactly the forest that the stream denotes, whatever was there before. -/
theorem Reachable.patch_converges (h : d.Reachable) {target : NodeId}
    (htarget : d.isElement target = true) {stream : List Instruction}
    (hbalanced : Instruction.Balanced stream)
    (hsize : (d.patch target stream).2.slots.size ≤ maxSlots) :
    (d.patch target stream).1 = .ok () ∧
      Instruction.forest? stream = some ((d.patch target stream).2.forest target) := by
  have hwf := h.wellFormed ((slots_size_le_patch d target stream).trans hsize)
  obtain ⟨forest, hforest⟩ := Instruction.balanced_iff.mp hbalanced
  obtain ⟨hok, hshown⟩ := hwf.forest_patch htarget hforest hsize
  exact ⟨hok, by rw [hforest, hshown]⟩

/-- Below an element with a comment, adjacent texts, two elements with one key and an element that
a stopped patch left, the key is opened three times, and what is not taken over is freed. -/
theorem Reachable.patch_converges_over_leftovers :
    let d := [Operation.createElement "div",
      .parseInto (fun _ => .ok (Fragment.ofNodes [.comment "c", .text "a",
        .element "p" [⟨"id", "k"⟩] [.text "old", .element "b" [] []],
        .element "p" [⟨"id", "k"⟩] [], .text "z"])) ⟨0, 0⟩ "",
      .createText "adjacent", .appendChild ⟨0, 0⟩ ⟨8, 0⟩,
      .patch ⟨0, 0⟩ [.text "first", .openElement "p" "left" [], .closeElement "b"]].foldl
        Dom.perform {}
    let stream := [Instruction.text "t", .text "u", .openElement "p" "k" [⟨"id", "k"⟩],
      .openElement "p" "k" [], .text "in", .closeElement "p", .closeElement "p",
      .openElement "p" "k" [], .closeElement "p", .text "last"]
    d.isElement ⟨0, 0⟩ = true ∧ Instruction.Balanced stream ∧
      (d.patch ⟨0, 0⟩ stream).2.slots.size ≤ maxSlots ∧ (d.patch ⟨0, 0⟩ stream).1 = .ok () ∧
      Instruction.forest? stream = some ((d.patch ⟨0, 0⟩ stream).2.forest ⟨0, 0⟩) := by
  intro d stream
  have htarget : d.isElement ⟨0, 0⟩ = true := by decide +kernel
  have hbalanced : Instruction.Balanced stream := by decide
  have hsize : (d.patch ⟨0, 0⟩ stream).2.slots.size ≤ maxSlots := by decide +kernel
  exact ⟨htarget, hbalanced, hsize,
    (Reachable.empty.foldl_perform _).patch_converges htarget hbalanced hsize⟩

end Dom
end LiveMarkup
