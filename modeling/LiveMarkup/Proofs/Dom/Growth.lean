import LiveMarkup.Dom.Edit
import LiveMarkup.Proofs.Dom.Links

/-!
# New nodes and changed nodes

A new node has no links, a change of what a node is leaves its links alone, and imported nodes hang
together among themselves until the topmost are put under their parent.

Main results:

- `Dom.WellFormed.alloc`, `Dom.WellFormed.modifyElement`: the tree stays well-formed.
- `Dom.importNode_spec`, `Dom.importUnder_spec`: so does it when nodes are imported, and no other
  node changes.
-/

namespace LiveMarkup
namespace Dom

variable {d : Dom}

/-! ## New nodes -/

/-- A new node was not live before. -/
theorem isLive_alloc_fresh (h : d.FreeExact) (data : LiveData)
    (hsize : (d.alloc data).2.slots.size ≤ maxSlots) : d.isLive (d.alloc data).1 = false :=
  not_isLive_iff.mpr (Dom.entry?_alloc_fresh h data hsize)

/-- A new node is live. -/
theorem isLive_alloc_self (h : d.FreeExact) (data : LiveData)
    (hsize : (d.alloc data).2.slots.size ≤ maxSlots) :
    (d.alloc data).2.isLive (d.alloc data).1 = true := by
  rw [isLive_iff]
  exact ⟨{ data }, by rw [Dom.entry?_alloc h data hsize, if_pos rfl]⟩

/-- A new node has no parent, and the others keep theirs. -/
theorem parent?_alloc (h : d.FreeExact) (data : LiveData)
    (hsize : (d.alloc data).2.slots.size ≤ maxSlots) (x : NodeId) :
    (d.alloc data).2.parent? x = d.parent? x := by
  rw [parent?_eq, parent?_eq, entry?_alloc h data hsize]
  split
  · next heq =>
    rw [heq, entry?_alloc_fresh h data hsize]
    rfl
  · rfl

/-- A new node has no children, and the others keep theirs. -/
theorem children_alloc (h : d.FreeExact) (data : LiveData)
    (hsize : (d.alloc data).2.slots.size ≤ maxSlots) (x : NodeId) :
    (d.alloc data).2.children x = d.children x := by
  rw [children_eq, children_eq, entry?_alloc h data hsize]
  split
  · next heq =>
    rw [heq, entry?_alloc_fresh h data hsize]
    rfl
  · rfl

/-- A document is well-formed after a node is made. -/
theorem WellFormed.alloc (h : d.WellFormed) (data : LiveData)
    (hsize : (d.alloc data).2.slots.size ≤ maxSlots) : (d.alloc data).2.WellFormed :=
  h.of_links (h.toFreeExact.alloc data) (parent?_alloc h.toFreeExact data hsize)
    (children_alloc h.toFreeExact data hsize)

/-! ## Changed nodes -/

/-- A change of an entry that keeps its parent changes no parent. -/
theorem parent?_modify (d : Dom) (id : NodeId) {f : LiveEntry → LiveEntry}
    (hf : ∀ e, (f e).parent = e.parent) (x : NodeId) :
    (d.modify id f).parent? x = d.parent? x := by
  rw [parent?_eq, parent?_eq, entry?_modify]
  split
  · next heq => rw [heq]; cases d.entry? id <;> simp [hf]
  · rfl

/-- A change of an entry that keeps its children changes no children. -/
theorem children_modify (d : Dom) (id : NodeId) {f : LiveEntry → LiveEntry}
    (hf : ∀ e, (f e).children = e.children) (x : NodeId) :
    (d.modify id f).children x = d.children x := by
  rw [children_eq, children_eq, entry?_modify]
  split
  · next heq => rw [heq]; cases d.entry? id <;> simp [hf]
  · rfl

/-- A change of a node that leaves its links alone keeps the tree well-formed. -/
theorem WellFormed.modify (h : d.WellFormed) (id : NodeId) {f : LiveEntry → LiveEntry}
    (hparent : ∀ e, (f e).parent = e.parent) (hchildren : ∀ e, (f e).children = e.children) :
    (d.modify id f).WellFormed :=
  h.of_links (h.toFreeExact.modify id f) (parent?_modify d id hparent)
    (children_modify d id hchildren)

/-- A document is well-formed after an element is changed. -/
theorem WellFormed.modifyElement (h : d.WellFormed) (id : NodeId) (f : LiveElement → LiveElement) :
    (d.modifyElement id f).WellFormed := by
  refine h.modify id ?_ ?_
  · intro e
    split <;> rfl
  · intro e
    split <;> rfl

theorem slots_size_modifyElement (d : Dom) (id : NodeId) (f : LiveElement → LiveElement) :
    (d.modifyElement id f).slots.size = d.slots.size :=
  slots_size_modify d id _

/-- An element is all that is required. -/
theorem requireElement_eq_ok_iff {id : NodeId} :
    d.requireElement id = .ok () ↔ d.isElement id = true := by
  unfold requireElement isElement element?
  cases d.data? id with
  | none => simp
  | some data => cases data <;> simp

/-! ## Import -/

mutual

/-- To import a node frees no slot. -/
theorem slots_size_le_importNode (d : Dom) :
    ∀ n : Node, d.slots.size ≤ (importNode d n).2.slots.size
  | .element _ _ children =>
    (slots_size_le_alloc d _).trans (slots_size_le_importUnder _ _ children)
  | .text _ => slots_size_le_alloc d _
  | .comment _ => slots_size_le_alloc d _
  | .directive _ => Nat.le_refl _

/-- To import nodes under another frees no slot. -/
theorem slots_size_le_importUnder (d : Dom) (parent : NodeId) :
    ∀ ns : List Node, d.slots.size ≤ (importUnder d parent ns).slots.size
  | [] => Nat.le_refl _
  | n :: rest => by
    have hnode := slots_size_le_importNode d n
    rw [importUnder]
    split
    · next child d₁ hn =>
      rw [hn] at hnode
      have hrest := slots_size_le_importUnder (d₁.insertLast parent child) parent rest
      rw [insertLast, slots_size_insertChild] at hrest
      exact hnode.trans hrest
    · next d₁ hn =>
      rw [hn] at hnode
      exact hnode.trans (slots_size_le_importUnder d₁ parent rest)

end

/-- The first of several nodes takes no more slots than all of them. -/
theorem slots_size_importNode_le (d : Dom) (parent : NodeId) (n : Node) (rest : List Node) :
    (importNode d n).2.slots.size ≤ (importUnder d parent (n :: rest)).slots.size := by
  rw [importUnder]
  rcases importNode d n with ⟨_ | child, d₁⟩
  · exact slots_size_le_importUnder d₁ parent rest
  · have hrest := slots_size_le_importUnder (d₁.insertLast parent child) parent rest
    rwa [insertLast, slots_size_insertChild] at hrest

/-- Every live node of `d` is the same in `d'`. -/
def Unchanged (d d' : Dom) : Prop :=
  ∀ x, d.isLive x = true → d'.entry? x = d.entry? x

/-- Nodes that are not changed stay live. -/
theorem Unchanged.isLive {d' : Dom} (h : d.Unchanged d') {x : NodeId} (hx : d.isLive x = true) :
    d'.isLive x = true := by
  rw [isLive_iff, h x hx]
  exact isLive_iff.mp hx

/-- Nodes that are not changed keep their parents. -/
theorem Unchanged.parent? {d' : Dom} (h : d.Unchanged d') {x : NodeId} (hx : d.isLive x = true) :
    d'.parent? x = d.parent? x := by
  rw [parent?_eq, parent?_eq, h x hx]

/-- To make a node changes no other one. -/
theorem unchanged_alloc (h : d.FreeExact) {data : LiveData}
    (hsize : (d.alloc data).2.slots.size ≤ maxSlots) : d.Unchanged (d.alloc data).2 := by
  intro x hx
  rw [Dom.entry?_alloc h data hsize, if_neg]
  rintro rfl
  rw [isLive_alloc_fresh h data hsize] at hx
  cases hx

/-- The nodes above an old node are old. -/
theorem Unchanged.isLive_of_below {d' : Dom} (hsame : d.Unchanged d') (h : d.WellFormed)
    {a x : NodeId} (hx : d.isLive x = true) (hbelow : d'.Below a x) : d.isLive a = true := by
  induction hbelow using Relation.ReflTransGen.head_induction_on with
  | refl => exact hx
  | head hc _ ih => exact ih (h.isLive_parent ((hsame.parent? hx).symm.trans hc))

/-- In `d'`, the node `id` is new and has no parent. -/
structure NewRoot (d d' : Dom) (id : NodeId) : Prop where
  fresh : d.isLive id = false
  live : d'.isLive id = true
  root : d'.parent? id = none

/-- A node that is made is a root of its own. -/
theorem newRoot_alloc (h : d.FreeExact) {data : LiveData}
    (hsize : (d.alloc data).2.slots.size ≤ maxSlots) :
    d.NewRoot (d.alloc data).2 (d.alloc data).1 where
  fresh := isLive_alloc_fresh h data hsize
  live := isLive_alloc_self h data hsize
  root := by
    rw [parent?_alloc h data hsize, parent?_eq, entry?_alloc_fresh h data hsize]
    rfl

/-- A new root is none of the old nodes. -/
theorem NewRoot.ne {d' : Dom} {id x : NodeId} (h : d.NewRoot d' id) (hx : d.isLive x = true) :
    x ≠ id := by
  rintro rfl
  rw [h.fresh] at hx
  cases hx

/-- A new node may be put under any old one. -/
theorem NewRoot.not_below {d' : Dom} {id x : NodeId} (hnew : d.NewRoot d' id) (h : d.WellFormed)
    (hsame : d.Unchanged d') (hx : d.isLive x = true) : ¬ d'.Below id x := by
  intro hbelow
  have hlive := hsame.isLive_of_below h hx hbelow
  rw [hnew.fresh] at hlive
  cases hlive

/-- Nodes may have come under `parent`; every other live node of `d` is the same in `d'`, and so is
the parent of `parent`. -/
structure GrownUnder (d d' : Dom) (parent : NodeId) : Prop where
  wellFormed : d'.WellFormed
  live : d'.isLive parent = true
  parent_eq : d'.parent? parent = d.parent? parent
  others : ∀ x, d.isLive x = true → x ≠ parent → d'.entry? x = d.entry? x

/-- A document has grown under each of its nodes, if only by nothing. -/
theorem GrownUnder.refl (h : d.WellFormed) {parent : NodeId} (hlive : d.isLive parent = true) :
    d.GrownUnder d parent :=
  ⟨h, hlive, rfl, fun _ _ _ => rfl⟩

/-- What grows under a node twice has grown under it. -/
theorem GrownUnder.trans {d₁ d₂ : Dom} {parent : NodeId} (h₁ : d.GrownUnder d₁ parent)
    (h₂ : d₁.GrownUnder d₂ parent) : d.GrownUnder d₂ parent where
  wellFormed := h₂.wellFormed
  live := h₂.live
  parent_eq := h₂.parent_eq.trans h₁.parent_eq
  others := by
    intro x hx hne
    have hkeep := h₁.others x hx hne
    have hlive : d₁.isLive x = true := by
      rw [isLive_iff, hkeep]
      exact isLive_iff.mp hx
    rw [h₂.others x hlive hne, hkeep]

/-- A document in which no node is changed has grown under each of them. -/
theorem Unchanged.grownUnder {d' : Dom} (hsame : d.Unchanged d') (h' : d'.WellFormed)
    {parent : NodeId} (hlive : d.isLive parent = true) : d.GrownUnder d' parent :=
  ⟨h', hsame.isLive hlive, hsame.parent? hlive, fun x hx _ => hsame x hx⟩

/-- A new node is put at the end of the children of an old one. -/
theorem NewRoot.grownUnder_insertLast {d' : Dom} {parent child : NodeId}
    (hnew : d.NewRoot d' child) (h : d.WellFormed) (h' : d'.WellFormed) (hsame : d.Unchanged d')
    (hlive : d.isLive parent = true) : d.GrownUnder (d'.insertLast parent child) parent := by
  have hne := hnew.ne hlive
  have hlive' := hsame.isLive hlive
  refine ⟨h'.insertChild hlive' hnew.live (hnew.not_below h hsame hlive) _, ?_, ?_, ?_⟩
  · rw [insertLast, isLive_insertChild h' hne, hlive']
  · rw [insertLast, parent?_insertChild h' hne hnew.live, if_neg hne, hsame.parent? hlive]
  · intro x hx hxp
    rw [insertLast, entry?_insertChild_of_root h' hne hnew.root _ hxp (hnew.ne hx), hsame x hx]

/-- A text or a comment is imported as a new node without parent. -/
theorem importLeaf_spec (h : d.WellFormed) (data : LiveData)
    (hsize : (d.alloc data).2.slots.size ≤ maxSlots) :
    (d.alloc data).2.WellFormed ∧ d.Unchanged (d.alloc data).2 ∧
      ∀ id, some (d.alloc data).1 = some id → d.NewRoot (d.alloc data).2 id := by
  refine ⟨h.alloc data hsize, unchanged_alloc h.toFreeExact hsize, ?_⟩
  rintro id ⟨⟩
  exact newRoot_alloc h.toFreeExact hsize

mutual

/-- A node is imported as a new node without parent, and no old node changes. -/
theorem importNode_spec {d : Dom} (h : d.WellFormed) :
    ∀ n : Node, (importNode d n).2.slots.size ≤ maxSlots →
      (importNode d n).2.WellFormed ∧ d.Unchanged (importNode d n).2 ∧
        ∀ id, (importNode d n).1 = some id → d.NewRoot (importNode d n).2 id
  | .element tag attrs children, hsize => by
    simp only [importNode] at hsize ⊢
    generalize hdata : LiveData.element { tag, key := Key.authored? attrs, attrs } = data
      at hsize ⊢
    have halloc := (slots_size_le_importUnder _ (d.alloc data).1 children).trans hsize
    have hnew := newRoot_alloc h.toFreeExact halloc
    have hkeep := unchanged_alloc h.toFreeExact halloc
    have hgrown := importUnder_spec (h.alloc data halloc) hnew.live children hsize
    refine ⟨hgrown.wellFormed, ?_, ?_⟩
    · intro x hx
      rw [hgrown.others x (hkeep.isLive hx) (hnew.ne hx), hkeep x hx]
    · rintro id ⟨⟩
      exact ⟨hnew.fresh, hgrown.live, hgrown.parent_eq.trans hnew.root⟩
  | .text data, hsize => importLeaf_spec h (.text data) hsize
  | .comment data, hsize => importLeaf_spec h (.comment data) hsize
  | .directive _, _ => ⟨h, fun _ _ => rfl, fun _ hid => by cases hid⟩

/-- Nodes are imported under an old node. -/
theorem importUnder_spec {d : Dom} (h : d.WellFormed) {parent : NodeId}
    (hlive : d.isLive parent = true) :
    ∀ ns : List Node, (importUnder d parent ns).slots.size ≤ maxSlots →
      d.GrownUnder (importUnder d parent ns) parent
  | [], _ => GrownUnder.refl h hlive
  | n :: rest, hsize => by
    obtain ⟨h₁, hsame, hnew⟩ :=
      importNode_spec h n ((slots_size_importNode_le d parent n rest).trans hsize)
    rw [importUnder] at hsize ⊢
    generalize importNode d n = imported at h₁ hsame hnew hsize ⊢
    obtain ⟨_ | child, d₁⟩ := imported
    · exact (hsame.grownUnder h₁ hlive).trans
        (importUnder_spec h₁ (hsame.isLive hlive) rest hsize)
    · have hput := (hnew child rfl).grownUnder_insertLast h h₁ hsame hlive
      exact hput.trans (importUnder_spec hput.wellFormed hput.live rest hsize)

end

/-- The handles of the topmost imported nodes aside, importing gives the same tree. -/
theorem importNodes_snd (parent : NodeId) :
    ∀ (ns : List Node) (d : Dom), (importNodes d parent ns).2 = importUnder d parent ns
  | [], _ => rfl
  | n :: rest, d => by
    rw [importNodes, importUnder]
    split
    · next child d₁ hn => exact importNodes_snd parent rest _
    · next d₁ hn => exact importNodes_snd parent rest _

end Dom
end LiveMarkup
