import LiveMarkup.Proofs.Dom.WellFormed

/-!
# Live nodes as trees

The tree of a live node is made of its own data and the trees of its children.  It depends on
nothing outside the subtree.

Main results:

- `Dom.tree?_eq`: the tree of a node from the trees of its children, without a bound on the depth.
- `Dom.data?_of_tree?_element`, `Dom.data?_of_tree?_text`: what the tree of a node says about it.
- `Dom.tree?_congr`: equal subtrees have equal trees.
-/

namespace LiveMarkup

/-- What a live node is as a tree, with trees below it; only elements keep them. -/
def LiveData.toTree (children : List LiveNode) : LiveData → LiveNode
  | .element e => .element e.tag e.key e.attrs children
  | .text content => .text content
  | .comment content => .comment content

namespace Dom

variable {d : Dom}

/-- One level of a bounded tree. -/
theorem treeTo?_succ (d : Dom) (depth : Nat) (id : NodeId) :
    d.treeTo? (depth + 1) id = (d.entry? id).map fun e =>
      e.data.toTree (e.children.filterMap (d.treeTo? depth)) := by
  rw [treeTo?]
  cases d.entry? id with
  | none => rfl
  | some e =>
    obtain ⟨data, parent, children⟩ := e
    cases data <;> rfl

/-- A bound that reaches the leaves makes no difference. -/
theorem treeTo?_eq_of_le (h : d.WellFormed) (m n : Nat) {id : NodeId} (hid : d.isLive id = true)
    (hm : d.slots.size ≤ m + h.rank id) (hn : d.slots.size ≤ n + h.rank id) :
    d.treeTo? m id = d.treeTo? n id := by
  refine h.eq_of_bounds (fun m n id _ hbelow => ?_) m n hid hm hn
  rw [treeTo?_succ, treeTo?_succ]
  cases hentry : d.entry? id with
  | none => rfl
  | some e =>
    have hchildren : d.children id = e.children := by simp [children_eq, hentry]
    rw [hchildren] at hbelow
    rw [Option.map_some, Option.map_some, List.filterMap_congr hbelow]

/-- The tree of a node is made of its data and the trees of its children. -/
theorem tree?_eq (h : d.WellFormed) (id : NodeId) :
    d.tree? id = (d.data? id).map (LiveData.toTree (d.forest id)) := by
  rw [tree?, treeTo?_succ, data?_eq]
  cases hid : d.entry? id with
  | none => rfl
  | some e =>
    have hforest : d.forest id = e.children.filterMap (d.treeTo? d.slots.size) := by
      rw [forest, children_eq, hid]
      refine List.filterMap_congr ?_
      intro c hc
      have hlive := h.isLive_child (show c ∈ d.children id by simpa [children_eq, hid] using hc)
      exact treeTo?_eq_of_le h _ _ hlive (by omega) (by omega)
    rw [Option.map_some, Option.map_some, Option.map_some, hforest]

theorem tree?_of_data? (h : d.WellFormed) {id : NodeId} {data : LiveData}
    (hdata : d.data? id = some data) : d.tree? id = some (data.toTree (d.forest id)) := by
  rw [tree?_eq h, hdata, Option.map_some]

theorem exists_tree? (h : d.WellFormed) {id : NodeId} (hlive : d.isLive id = true) :
    ∃ tree, d.tree? id = some tree := by
  rw [isLive_eq_data?, Option.isSome_iff_exists] at hlive
  obtain ⟨data, hdata⟩ := hlive
  exact ⟨_, tree?_of_data? h hdata⟩

/-- The first of several trees is that of the first of several live nodes. -/
theorem exists_cons_of_filterMap_tree? (h : d.WellFormed) {cs : List NodeId}
    (hlive : ∀ c ∈ cs, d.isLive c = true) {tree : LiveNode} {rest : List LiveNode}
    (heq : cs.filterMap d.tree? = tree :: rest) :
    ∃ c cs', cs = c :: cs' ∧ d.tree? c = some tree ∧ cs'.filterMap d.tree? = rest := by
  cases cs with
  | nil => cases heq
  | cons c cs' =>
    obtain ⟨tree', htree⟩ := exists_tree? h (hlive c List.mem_cons_self)
    rw [List.filterMap_cons_some htree] at heq
    obtain ⟨rfl, rfl⟩ := List.cons.inj heq
    exact ⟨c, cs', rfl, htree, rfl⟩

/-- What is shown as an element is one, and shows below it what is in that element. -/
theorem data?_of_tree?_element (h : d.WellFormed) {c : NodeId} {tag : String}
    {key : Option String} {attrs : List Attribute} {below : List LiveNode}
    (htree : d.tree? c = some (.element tag key attrs below)) :
    d.data? c = some (.element { tag, key, attrs }) ∧ d.forest c = below := by
  rw [tree?_eq h, Option.map_eq_some_iff] at htree
  obtain ⟨data, hdata, heq⟩ := htree
  cases data with
  | element e =>
    cases heq
    exact ⟨hdata, rfl⟩
  | text content => cases heq
  | comment content => cases heq

/-- What is shown as a text is one. -/
theorem data?_of_tree?_text (h : d.WellFormed) {c : NodeId} {content : String}
    (htree : d.tree? c = some (.text content)) : d.data? c = some (.text content) := by
  rw [tree?_eq h, Option.map_eq_some_iff] at htree
  obtain ⟨data, hdata, heq⟩ := htree
  cases data <;> cases heq
  exact hdata

/-- The forest below a node depends on its children and their trees only. -/
theorem forest_congr {d' : Dom} {id : NodeId} (hchildren : d'.children id = d.children id)
    (htree : ∀ c ∈ d.children id, d'.tree? c = d.tree? c) : d'.forest id = d.forest id := by
  rw [forest, forest, hchildren]
  exact List.filterMap_congr htree

/-- Two trees whose subtrees below a node have equal data and children look the same there. -/
theorem tree?_congr (h : d.WellFormed) {d' : Dom} (h' : d'.WellFormed) {id : NodeId}
    (hsame : ∀ x, d.Below id x → d'.data? x = d.data? x ∧ d'.children x = d.children x) :
    d'.tree? id = d.tree? id := by
  induction id using h.wellFounded_isChild.induction with
  | _ id ih =>
    obtain ⟨hdata, hchildren⟩ := hsame id (Below.refl d id)
    have hforest : d'.forest id = d.forest id := by
      refine forest_congr hchildren ?_
      intro c hc
      have hparent := h.parent_of_mem hc
      exact ih c hparent fun x hx => hsame x ((below_of_parent? hparent).trans hx)
    rw [tree?_eq h', tree?_eq h, hdata, hforest]

/-- A node that is the same keeps its data and its children. -/
theorem data?_children_congr {d' : Dom} {x : NodeId} (h : d'.entry? x = d.entry? x) :
    d'.data? x = d.data? x ∧ d'.children x = d.children x :=
  ⟨by rw [data?_eq, data?_eq, h], by rw [children_eq, children_eq, h]⟩

/-- Whether a node is a live element is a question of its data. -/
theorem isElement_congr {d' : Dom} {x : NodeId} (h : d'.data? x = d.data? x) :
    d'.isElement x = d.isElement x := by
  rw [isElement, isElement, element?, element?, h]

/-- A node keeps the trees below it if all that lies there keeps its data and its children. -/
theorem WellFormed.forest_eq_of_below (h : d.WellFormed) {d' : Dom} (h' : d'.WellFormed)
    {a : NodeId}
    (hsame : ∀ x, d.Below a x → d'.data? x = d.data? x ∧ d'.children x = d.children x) :
    d'.forest a = d.forest a := by
  refine forest_congr (hsame a (Below.refl d a)).2 ?_
  intro c hc
  have hbelow := below_of_parent? (h.parent_of_mem hc)
  exact tree?_congr h h' fun x hx => hsame x (hbelow.trans hx)

end Dom
end LiveMarkup
