import LiveMarkup.Proofs.Markup.Elements

/-!
# How deep elements are nested

The elements of trees in document order, each with how many elements deep it lies, itself counted.
A fragment counts the nodes above a node, the root among them, and comes to the same number.

Main definitions:

- `Node.Nesting`: an element as far as nesting goes.
- `Node.nestings`, `Node.nestingsAll`: the elements of trees in document order.
- `Node.tooDeep?`: the first of them that lies too deep.

Main results:

- `Node.tooDeep?_append`, `Node.tooDeep?_element`: the first element that lies too deep, found on the
  way down.
- `Node.nestingsAll_joinedUnder`: making adjacent texts one does not show in it.
- `Fragment.BuiltUnder.nesting_mem`: every element of a fragment is in the list of its trees.
-/

namespace LiveMarkup

namespace Node

/-- An element: how many elements deep it lies, itself counted, and its tag. -/
structure Nesting where
  depth : Nat
  tag : String
  deriving DecidableEq, Repr

/-- The same element seen from outside an element around it. -/
def Nesting.inside (e : Nesting) : Nesting :=
  { e with depth := e.depth + 1 }

mutual

/-- The elements at and below a node in document order. -/
def nestings : Node → List Nesting
  | .element tag _ children => ⟨1, tag⟩ :: (nestingsAll children).map Nesting.inside
  | .text _ => []
  | .comment _ => []
  | .directive _ => []

/-- The elements among nodes and below them in document order. -/
def nestingsAll : List Node → List Nesting
  | [] => []
  | n :: rest => nestings n ++ nestingsAll rest

end

/-- The elements among nodes are those among the first ones and those among the others. -/
theorem nestingsAll_append (first second : List Node) :
    nestingsAll (first ++ second) = nestingsAll first ++ nestingsAll second := by
  induction first with
  | nil => rfl
  | cons n first ih => rw [List.cons_append, nestingsAll, nestingsAll, ih, List.append_assoc]

theorem nestingsAll_singleton (n : Node) : nestingsAll [n] = nestings n := by
  rw [nestingsAll, nestingsAll, List.append_nil]

/-! ## The first that lies too deep -/

/-- The tag of the first element in document order that lies more than `limit` elements deep, where
`depth` elements are around the nodes. -/
def tooDeep? (limit depth : Nat) (ns : List Node) : Option String :=
  ((nestingsAll ns).find? fun e => limit < depth + e.depth).map (·.tag)

/-- The first element that lies too deep is among the first nodes, if there is one. -/
theorem tooDeep?_append (limit depth : Nat) (first second : List Node) :
    tooDeep? limit depth (first ++ second) =
      (tooDeep? limit depth first).or (tooDeep? limit depth second) := by
  rw [tooDeep?, nestingsAll_append, List.find?_append, tooDeep?, tooDeep?]
  cases (nestingsAll first).find? fun e => limit < depth + e.depth <;> rfl

/-- An element that does not lie too deep itself is around one more. -/
theorem tooDeep?_element (limit depth : Nat) (tag : String) (attrs : List Attribute)
    (children : List Node) :
    tooDeep? limit depth [.element tag attrs children] =
      if limit ≤ depth then some tag else tooDeep? limit (depth + 1) children := by
  rw [tooDeep?, nestingsAll_singleton, nestings, List.find?_cons]
  by_cases hdeep : limit ≤ depth
  · rw [if_pos hdeep, decide_eq_true (show limit < depth + 1 by omega)]
    rfl
  · have hinside : ((fun e : Nesting => decide (limit < depth + e.depth)) ∘ Nesting.inside) =
        fun e => decide (limit < depth + 1 + e.depth) := by
      funext e
      rw [Function.comp_apply, Nesting.inside, Nat.add_assoc, Nat.add_comm 1 e.depth]
    rw [if_neg hdeep, decide_eq_false (show ¬ limit < depth + 1 by omega), List.find?_map,
      hinside, Option.map_map]
    rfl

/-! ## Adjacent texts -/

/-- To make adjacent texts one changes no nesting. -/
theorem nestingsAll_join (before : List Node) (n : Node) :
    nestingsAll (join before n) = nestingsAll before ++ nestings n := by
  have hnew : nestingsAll (before ++ [n]) = nestingsAll before ++ nestings n := by
    rw [nestingsAll_append, nestingsAll_singleton]
  cases n with
  | element tag attrs children => exact hnew
  | comment data => exact hnew
  | directive data => exact hnew
  | text data =>
    rcases List.eq_nil_or_concat before with rfl | ⟨front, m, rfl⟩
    · exact hnew
    · rw [List.concat_eq_append] at hnew ⊢
      by_cases htext : ∃ last, m = .text last
      · obtain ⟨last, rfl⟩ := htext
        rw [join_concat_text, nestingsAll_append, nestingsAll_append]
        simp [nestingsAll, nestings]
      · rw [join_concat fun last hm => htext ⟨last, hm⟩]
        exact hnew

mutual

theorem nestings_joined : ∀ n : Node, n.joined.nestings = n.nestings
  | .element tag attrs children => by
    rw [joined, nestings, nestings, nestingsAll_joinedUnder, nestingsAll, List.nil_append]
  | .text _ => rfl
  | .comment _ => rfl
  | .directive _ => rfl

/-- Making adjacent texts one leaves the elements where they are. -/
theorem nestingsAll_joinedUnder (before : List Node) :
    ∀ ns : List Node, nestingsAll (joinedUnder before ns) = nestingsAll before ++ nestingsAll ns
  | [] => by rw [joinedUnder, nestingsAll, List.append_nil]
  | n :: rest => by
    rw [joinedUnder, nestingsAll_joinedUnder _ rest, nestingsAll_join, nestings_joined n,
      nestingsAll, List.append_assoc]

end

/-- What is nested in one of some nodes is nested among them. -/
theorem mem_nestingsAll {ns : List Node} {n : Node} (hn : n ∈ ns) {e : Nesting}
    (he : e ∈ n.nestings) : e ∈ nestingsAll ns := by
  induction ns with
  | nil => cases hn
  | cons m rest ih =>
    rw [nestingsAll, List.mem_append]
    rcases List.mem_cons.mp hn with rfl | hn
    · exact Or.inl he
    · exact Or.inr (ih hn)

end Node

/-! ## Depths in a fragment -/

namespace Fragment

variable {f : Fragment}

/-- A node without parent lies at no depth. -/
theorem depth_of_parent?_eq_none {id : Nat} (hnone : f.parent? id = none) : f.depth id = 0 := by
  rw [depth]
  split
  · rfl
  · next hparent => cases hnone.symm.trans hparent

/-- A node lies one deeper than its parent. -/
theorem depth_of_parent? {id parent : Nat} (hparent : f.parent? id = some parent) :
    f.depth id = f.depth parent + 1 := by
  rw [depth]
  split
  · next hnone => cases hnone.symm.trans hparent
  · next hsome =>
    cases hsome.symm.trans hparent
    rfl

/-- The tree of a child is among the trees below its parent. -/
theorem mem_forest_of_mem_children {id c : Nat} (hc : c ∈ f.children id) {n : Node}
    (hn : f.node? c = some n) : n ∈ f.forest id := by
  rw [forest_eq]
  exact List.mem_filterMap.mpr ⟨c, hc, hn⟩

/-- An element of a fragment stands for its tag, its attributes and the trees below it. -/
theorem node?_of_content?_tag {id : Nat} {name : String} {attrs : List Attribute}
    (hcontent : f.content? id = some (.tag name attrs)) :
    f.node? id = some (.element name attrs (f.forest id)) := by
  rw [node?, hcontent]
  rfl

/-- The elements in the tree of an element are in the list of all trees, with the elements above
it counted. -/
theorem BuiltUnder.nestings_subset (h : f.BuiltUnder CanHold) {id : Nat} {n : Node}
    (htag : f.isTag id = true) (hn : f.node? id = some n) :
    ∀ e ∈ n.nestings,
      ∃ e' ∈ Node.nestingsAll (f.forest root), e'.depth + 1 = f.depth id + e.depth ∧
        e'.tag = e.tag := by
  induction id using Nat.strongRecOn generalizing n with
  | ind id ih =>
    intro e he
    have hpos : 0 < id := by
      obtain ⟨name, attrs, hcontent⟩ := isTag_iff.mp htag
      exact pos_of_content? hcontent
    obtain ⟨parent, hparent⟩ :=
      Option.ne_none_iff_exists'.mp (parent?_ne_none hpos (lt_size_of_isTag htag))
    have hlt := parent_lt hparent
    have hdepth := depth_of_parent? hparent
    have hmem := mem_forest_of_mem_children (mem_children_iff.mpr hparent) hn
    rcases h.canHold_parent hparent with rfl | hptag
    · refine ⟨e, Node.mem_nestingsAll hmem he, ?_, rfl⟩
      rw [hdepth, depth_of_parent?_eq_none f.parent?_root]
      omega
    · obtain ⟨name, attrs, hcontent⟩ := isTag_iff.mp hptag
      have hinside : e.inside ∈ (Node.element name attrs (f.forest parent)).nestings :=
        List.mem_cons_of_mem _ (List.mem_map_of_mem (Node.mem_nestingsAll hmem he))
      obtain ⟨e', he', hsum, hsame⟩ :=
        ih parent hlt hptag (node?_of_content?_tag hcontent) e.inside hinside
      have hinner : e.inside.depth = e.depth + 1 := rfl
      refine ⟨e', he', ?_, hsame⟩
      rw [hsum, hdepth, hinner]
      omega

/-- An element of a fragment is in the list of its trees, as many elements deep as there are nodes
above it. -/
theorem BuiltUnder.nesting_mem (h : f.BuiltUnder CanHold) {id : Nat} (htag : f.isTag id = true) :
    (⟨f.depth id, f.tagName id⟩ : Node.Nesting) ∈ Node.nestingsAll (f.forest root) := by
  obtain ⟨name, attrs, hcontent⟩ := isTag_iff.mp htag
  obtain ⟨⟨depth, tag⟩, he, hdepth, htag'⟩ :=
    h.nestings_subset htag (node?_of_content?_tag hcontent) ⟨1, name⟩ List.mem_cons_self
  have hname : f.tagName id = name := by
    rw [tagName, hcontent]
    rfl
  rw [hname]
  cases htag'
  cases Nat.add_right_cancel hdepth
  exact he

end Fragment
end LiveMarkup
