import LiveMarkup.Proofs.Dom.Reachable

/-!
# What is imported

To import nodes is to append their trees: every element comes with its attributes and with the key
of its authored id, directives are left out, and the trees that were there before stay.

Main definitions:

- `Node.live?`, `Node.liveAll`: nodes as trees of live nodes.

Main results:

- `Dom.NewRoot.forest_insertLast`: a new tree that is appended stands after those that were there.
- `Dom.tree?_importNode`, `Dom.forest_importUnder`: what is imported.
- `Dom.exists_parseInto`: into an element all markup that can be parsed is imported.
- `Dom.WellFormed.parseInto_spec`: what markup leaves below its parent.
-/

namespace LiveMarkup

namespace Node

mutual

/-- The live node that a node is imported as; a directive is left out. -/
def live? : Node → Option LiveNode
  | .element tag attrs children =>
    some (.element tag (Key.authored? attrs) attrs (liveAll children))
  | .text data => some (.text data)
  | .comment data => some (.comment data)
  | .directive _ => none

/-- The live nodes that nodes are imported as. -/
def liveAll : List Node → List LiveNode
  | [] => []
  | n :: rest => (live? n).toList ++ liveAll rest

end

end Node

namespace Dom

variable {d d' : Dom} {parent child : NodeId}

/-! ## A new tree under an old node -/

/-- A new root is among no children. -/
theorem NewRoot.filter_children (hnew : d.NewRoot d' child) (h' : d'.WellFormed) (x : NodeId) :
    ((d'.children x).filter fun c => c != child) = d'.children x := by
  refine List.filter_eq_self.mpr ?_
  intro c hc
  have hne : c ≠ child := by
    rintro rfl
    cases hnew.root.symm.trans (h'.parent_of_mem hc)
  simpa using hne

theorem NewRoot.children_insertLast (hnew : d.NewRoot d' child) (h' : d'.WellFormed)
    (hne : parent ≠ child) (hlive : d'.isLive parent = true) (x : NodeId) :
    (d'.insertLast parent child).children x =
      if x = parent then d'.children x ++ [child] else d'.children x := by
  rw [insertLast, children_insertChild h' hne hlive]
  simp only [hnew.filter_children h']
  split
  · next hx =>
    rw [hx, Nat.min_self, List.insertIdx_length_self]
  · rfl

/-- A new tree that is appended stands after those that were there. -/
theorem NewRoot.forest_insertLast (hnew : d.NewRoot d' child) (h : d.WellFormed)
    (h' : d'.WellFormed) (hsame : d.Unchanged d') (hlive : d.isLive parent = true) :
    (d'.insertLast parent child).forest parent = d.forest parent ++ (d'.tree? child).toList := by
  have hgrown := hnew.grownUnder_insertLast h h' hsame hlive
  have hne := hnew.ne hlive
  have hchildren := hnew.children_insertLast h' hne (hsame.isLive hlive)
  have hold : ∀ c ∈ d.children parent, (d'.insertLast parent child).tree? c = d.tree? c := by
    intro c hc
    have hparent := h.parent_of_mem hc
    refine tree?_congr h hgrown.wellFormed ?_
    intro x hx
    have hxp : x ≠ parent := by
      rintro rfl
      exact h.not_below_parent hparent hx
    exact data?_children_congr (hgrown.others x (hx.isLive (h.isLive_child hc)) hxp)
  have hadded : (d'.insertLast parent child).tree? child = d'.tree? child := by
    refine tree?_congr h' hgrown.wellFormed ?_
    intro x hx
    have hxp : x ≠ parent := by
      rintro rfl
      exact hnew.not_below h hsame hlive hx
    exact ⟨data?_insertChild h' hne _ x, by rw [hchildren, if_neg hxp]⟩
  have hkept := (data?_children_congr (hsame parent hlive)).2
  rw [forest, forest, hchildren, if_pos rfl, hkept, List.filterMap_append,
    List.filterMap_congr hold]
  congr 1
  cases htree : d'.tree? child with
  | none => simp [hadded, htree]
  | some tree => simp [hadded, htree]

/-- Old trees stay as they are if no old node changes. -/
theorem Unchanged.forest_eq (hsame : d.Unchanged d') (h : d.WellFormed) (h' : d'.WellFormed)
    (hlive : d.isLive parent = true) : d'.forest parent = d.forest parent := by
  refine h.forest_eq_of_below h' ?_
  exact fun x hx => data?_children_congr (hsame x (hx.isLive hlive))

/-! ## Imported nodes -/

/-- A new node is what it was filled with, and nothing lies below it. -/
theorem data?_forest_alloc (h : d.FreeExact) (data : LiveData)
    (hsize : (d.alloc data).2.slots.size ≤ maxSlots) :
    (d.alloc data).2.data? (d.alloc data).1 = some data ∧
      (d.alloc data).2.forest (d.alloc data).1 = [] := by
  have hentry := entry?_alloc h data hsize (d.alloc data).1
  rw [if_pos rfl] at hentry
  exact ⟨by rw [Dom.data?_eq, hentry]; rfl, by rw [forest, children_eq, hentry]; rfl⟩

theorem WellFormed.createElement_spec (h : d.WellFormed) (tag : String)
    (hsize : (d.createElement tag).2.slots.size ≤ maxSlots) :
    (d.createElement tag).2.WellFormed ∧
      (d.createElement tag).2.data? (d.createElement tag).1 = some (.element { tag }) ∧
      (d.createElement tag).2.forest (d.createElement tag).1 = [] :=
  ⟨h.alloc _ hsize, data?_forest_alloc h.toFreeExact _ hsize⟩

theorem tree?_alloc (h : d.WellFormed) (data : LiveData)
    (hsize : (d.alloc data).2.slots.size ≤ maxSlots) :
    (d.alloc data).2.tree? (d.alloc data).1 = some (data.toTree []) := by
  obtain ⟨hdata, hforest⟩ := data?_forest_alloc h.toFreeExact data hsize
  rw [tree?_of_data? (h.alloc data hsize) hdata, hforest]

mutual

/-- The tree of an imported node. -/
theorem tree?_importNode {d : Dom} (h : d.WellFormed) :
    ∀ n : Node, (importNode d n).2.slots.size ≤ maxSlots →
      (importNode d n).1.bind (importNode d n).2.tree? = n.live?
  | .element tag attrs children, hsize => by
    simp only [importNode] at hsize ⊢
    generalize hdata : LiveData.element { tag, key := Key.authored? attrs, attrs } = data
      at hsize ⊢
    have halloc := (slots_size_le_importUnder _ (d.alloc data).1 children).trans hsize
    have hlive := isLive_alloc_self h.toFreeExact data halloc
    have hgrown := importUnder_spec (h.alloc data halloc) hlive children hsize
    obtain ⟨hdata', hforest⟩ := data?_forest_alloc h.toFreeExact data halloc
    obtain ⟨hkept, hbelow⟩ := forest_importUnder (h.alloc data halloc) hlive children hsize
    rw [Option.bind_some, tree?_of_data? hgrown.wellFormed (hkept.trans hdata'), hbelow, hforest,
      ← hdata]
    rfl
  | .text data, hsize => tree?_alloc h (.text data) hsize
  | .comment data, hsize => tree?_alloc h (.comment data) hsize
  | .directive _, _ => rfl

/-- An element under which nodes are imported stays what it is, and their trees are appended. -/
theorem forest_importUnder {d : Dom} (h : d.WellFormed) {parent : NodeId}
    (hlive : d.isLive parent = true) :
    ∀ ns : List Node, (importUnder d parent ns).slots.size ≤ maxSlots →
      (importUnder d parent ns).data? parent = d.data? parent ∧
        (importUnder d parent ns).forest parent = d.forest parent ++ Node.liveAll ns
  | [], _ => by simp [importUnder, Node.liveAll]
  | n :: rest, hsize => by
    have hbound := (slots_size_importNode_le d parent n rest).trans hsize
    have htree := tree?_importNode h n hbound
    obtain ⟨h₁, hsame, hnew⟩ := importNode_spec h n hbound
    rw [importUnder] at hsize ⊢
    generalize importNode d n = imported at h₁ hsame hnew htree hsize ⊢
    obtain ⟨_ | child, d₁⟩ := imported
    · obtain ⟨hdata, hforest⟩ := forest_importUnder h₁ (hsame.isLive hlive) rest hsize
      have hnone : n.live? = none := htree.symm
      refine ⟨hdata.trans (data?_children_congr (hsame parent hlive)).1, ?_⟩
      rw [hforest, hsame.forest_eq h h₁ hlive, Node.liveAll, hnone]
      rfl
    · have hroot := hnew child rfl
      have hput := hroot.grownUnder_insertLast h h₁ hsame hlive
      obtain ⟨hdata, hforest⟩ := forest_importUnder hput.wellFormed hput.live rest hsize
      have hkept := (data?_children_congr (hsame parent hlive)).1
      refine ⟨?_, ?_⟩
      · rw [hdata, insertLast, data?_insertChild h₁ (hroot.ne hlive), hkept]
      · rw [hforest, hroot.forest_insertLast h h₁ hsame hlive, List.append_assoc, Node.liveAll,
          ← htree]
        rfl

end

/-! ## Markup -/

variable {parser : MarkupParser} {markup : String} {f : Fragment}

theorem slots_size_le_parseInto {added : List NodeId}
    (hparse : parseInto parser d parent markup = .ok (added, d')) :
    d.slots.size ≤ d'.slots.size := by
  obtain ⟨-, ns, rfl⟩ := parseInto_eq_ok hparse
  exact slots_size_le_importUnder d parent ns

/-- Markup that can be parsed is imported under its parent, after what was there. -/
theorem WellFormed.parseInto_spec (h : d.WellFormed) {added : List NodeId}
    (hparse : parseInto parser d parent markup = .ok (added, d'))
    (hsize : d'.slots.size ≤ maxSlots) :
    ∃ f, parser markup = .ok f ∧ d'.data? parent = d.data? parent ∧
      d'.forest parent = d.forest parent ++ Node.liveAll (f.forest Fragment.root) := by
  unfold parseInto at hparse
  split at hparse
  · cases hparse
  · next hrequire =>
    have hlive := isLive_of_isElement (requireElement_eq_ok_iff.mp hrequire)
    split at hparse
    · cases hparse
    · next f hf =>
      have hd := congrArg Prod.snd (Except.ok.inj hparse)
      rw [importFragment, importNodes_snd] at hd
      subst hd
      exact ⟨f, hf, forest_importUnder h hlive _ hsize⟩

/-- Into an element all markup that can be parsed is imported. -/
theorem exists_parseInto (hparent : d.isElement parent = true) (hparse : parser markup = .ok f) :
    ∃ added d', parseInto parser d parent markup = .ok (added, d') := by
  refine ⟨(d.importFragment parent f).1, (d.importFragment parent f).2, ?_⟩
  unfold parseInto
  rw [requireElement_eq_ok_iff.mpr hparent, hparse]

theorem Reachable.parseInto (hd : d.Reachable) {added : List NodeId}
    (himport : Dom.parseInto parser d parent markup = .ok (added, d')) : d'.Reachable := by
  have hperform := hd.perform (.parseInto parser parent markup)
  simp only [Dom.perform, himport] at hperform
  exact hperform

/-- An element without children shows what is imported into it, and nothing else. -/
theorem WellFormed.forest_parseInto (h : d.WellFormed) (hempty : d.children parent = [])
    {added : List NodeId} (hparse : parser markup = .ok f)
    (himport : Dom.parseInto parser d parent markup = .ok (added, d'))
    (hsize : d'.slots.size ≤ maxSlots) :
    d'.data? parent = d.data? parent ∧
      d'.forest parent = Node.liveAll (f.forest Fragment.root) := by
  obtain ⟨f', hparse', hdata, hforest⟩ := h.parseInto_spec himport hsize
  cases hparse.symm.trans hparse'
  have hbefore : d.forest parent = [] := by rw [forest, hempty, List.filterMap_nil]
  rw [hbefore, List.nil_append] at hforest
  exact ⟨hdata, hforest⟩

end Dom
end LiveMarkup
