import LiveMarkup.Proofs.Markup.Appending

/-!
# The elements of a fragment

The trees of a fragment hold an element if and only if nothing but elements is above it, since
nothing else keeps what lies below it.  Such elements, in document order, are the elements of the
trees one by one.

Main definitions:

- `Node.elements`, `Node.elementsAll`: the elements among trees.
- `Fragment.isElement`, `Fragment.elements`: the elements that the trees of a fragment hold.

Main results:

- `Fragment.map_node?_elements`: the elements of a fragment are those among its trees.
- `Fragment.BuiltUnder.mem_elements`: where nodes are only appended under the root and under
  elements, every element is one of these.
-/

namespace LiveMarkup

namespace Node

mutual

/-- The elements at and below a node, in document order, each with what lies below it. -/
def elements : Node → List Node
  | .element tag attrs children => .element tag attrs children :: elementsAll children
  | .text _ => []
  | .comment _ => []
  | .directive _ => []

/-- The elements among nodes and below them, in document order, each with what lies below it. -/
def elementsAll : List Node → List Node
  | [] => []
  | n :: rest => elements n ++ elementsAll rest

end

end Node

namespace Fragment

variable {f : Fragment}

/-- Whether a node is an element with nothing but elements above it, up to the root. -/
def isElement (f : Fragment) (id : Nat) : Bool :=
  f.isTag id && (f.ancestors id).all fun above => f.CanHold above

/-- The elements that the trees of a fragment hold, in document order. -/
def elements (f : Fragment) : List Nat :=
  (f.descendants root).filter f.isElement

/-- Below a node that cannot hold nodes there are no elements, and none below these. -/
theorem isElement_eq_false_of_mem_below {id : Nat}
    (hcannot : ∃ above ∈ id :: f.ancestors id, ¬ f.CanHold above) :
    ∀ x ∈ (f.children id).flatMap f.descendants, f.isElement x = false := by
  induction id using f.induction_below with
  | below id ih =>
    intro x hx
    obtain ⟨c, hc, hx⟩ := List.mem_flatMap.mp hx
    have habove : ∃ above ∈ f.ancestors c, ¬ f.CanHold above := by
      rwa [ancestors_of_mem_children hc]
    rw [descendants_eq, List.mem_cons] at hx
    rcases hx with rfl | hx
    · simpa [isElement] using fun _ => habove
    · obtain ⟨above, hmem, hnot⟩ := habove
      exact ih c hc ⟨above, List.mem_cons_of_mem c hmem, hnot⟩ x hx

/-- The elements at and below a child are those of its tree. -/
theorem map_node?_child {id c : Nat} (hc : c ∈ f.children id)
    (hholds : ∀ above ∈ id :: f.ancestors id, f.CanHold above) {content : Content}
    (hcontent : f.content? c = some content)
    (hbelow : f.isTag c = true →
      (((f.children c).flatMap f.descendants).filter f.isElement).map f.node? =
        (Node.elementsAll (f.forest c)).map some) :
    ((f.descendants c).filter f.isElement).map f.node? =
      (content.toNode (f.forest c)).elements.map some := by
  have hroot : c ≠ root := Nat.ne_of_gt (Nat.zero_lt_of_lt (lt_of_mem_children hc).1)
  have htag := isTag_of_content? hcontent
  rw [descendants_eq]
  by_cases hkind : content.kind = .tag
  · have helement : f.isElement c = true := by
      rw [isElement, ancestors_of_mem_children hc, htag, hkind]
      simpa using hholds
    rw [List.filter_cons_of_pos helement, List.map_cons, hbelow (by simp [htag, hkind]), node?,
      hcontent]
    cases content with
    | tag name attrs => rfl
    | _ => cases hkind
  · -- What is not an element has no place for what is appended under it.
    have hcannot : ¬ f.CanHold c := by
      rintro (h | h)
      · exact hroot h
      · simp [htag, hkind] at h
    have hnone := isElement_eq_false_of_mem_below ⟨c, List.mem_cons_self, hcannot⟩
    have hself : f.isElement c = false := by simp [isElement, htag, hkind]
    have hfilter : (c :: (f.children c).flatMap f.descendants).filter f.isElement = [] := by
      refine List.filter_eq_nil_iff.mpr fun x hx => ?_
      rcases List.mem_cons.mp hx with rfl | hx
      · simp [hself]
      · simp [hnone x hx]
    rw [hfilter]
    cases content with
    | tag name attrs => exact absurd rfl hkind
    | _ => rfl

/-- The elements below a node are those among the trees there, if the node and those above it can
hold nodes. -/
theorem map_node?_below {id : Nat} (hholds : ∀ above ∈ id :: f.ancestors id, f.CanHold above) :
    (((f.children id).flatMap f.descendants).filter f.isElement).map f.node? =
      (Node.elementsAll (f.forest id)).map some := by
  induction id using f.induction_below with
  | below id ih =>
    have hsome : ∀ cs : List Nat, (∀ c ∈ cs, c ∈ f.children id) →
        ((cs.flatMap f.descendants).filter f.isElement).map f.node? =
          (Node.elementsAll (cs.filterMap fun c => (f.content? c).map fun content =>
            content.toNode (f.forest c))).map some := by
      intro cs hcs
      induction cs with
      | nil => rfl
      | cons c rest ihrest =>
        have hc := hcs c List.mem_cons_self
        obtain ⟨content, hcontent⟩ :=
          Option.ne_none_iff_exists'.mp (content?_ne_none_of_mem_children hc)
        have hfirst := map_node?_child hc hholds hcontent fun htag => ih c hc (by
          rw [ancestors_of_mem_children hc]
          exact List.forall_mem_cons.mpr ⟨Or.inr htag, hholds⟩)
        have hrest := ihrest fun x hx => hcs x (List.mem_cons_of_mem c hx)
        rw [List.flatMap_cons, List.filter_append, List.map_append, hfirst, hrest,
          List.filterMap_cons, hcontent, Option.map_some, Node.elementsAll, List.map_append]
    rw [forest_eq]
    exact hsome (f.children id) fun c hc => hc

/-- The elements of a fragment are those among its trees, in the same order. -/
theorem map_node?_elements (f : Fragment) :
    f.elements.map f.node? = (Node.elementsAll (f.forest root)).map some := by
  have hroot : f.isElement root = false := by simp [isElement, isTag]
  rw [elements, descendants_eq, List.filter_cons_of_neg (by simp [hroot])]
  refine map_node?_below fun above habove => ?_
  rw [ancestors_of_parent?_eq_none f.parent?_root, List.mem_singleton] at habove
  exact Or.inl habove

/-- An element of a fragment has its number among the elements of the trees. -/
theorem getElem?_elementsAll {id : Nat} (hid : id ∈ f.elements) :
    ∃ n, f.node? id = some n ∧
      (Node.elementsAll (f.forest root))[f.elements.idxOf id]? = some n := by
  have hnode : ((Node.elementsAll (f.forest root)).map some)[f.elements.idxOf id]? =
      some (f.node? id) := by
    rw [← map_node?_elements, List.getElem?_map, List.getElem?_idxOf hid, Option.map_some]
  rw [List.getElem?_map, Option.map_eq_some_iff] at hnode
  obtain ⟨n, hn, hnode⟩ := hnode
  exact ⟨n, hnode.symm, hn⟩

/-- Where nodes are only appended under the root and under elements, every element is among those
that the trees hold. -/
theorem BuiltUnder.mem_elements (h : f.BuiltUnder CanHold) {id : Nat} (htag : f.isTag id = true) :
    id ∈ f.elements := by
  have habove : ∀ x : Nat, ∀ above ∈ f.ancestors x, f.CanHold above := by
    intro x
    induction x using f.induction_above with
    | top x hnone =>
      rw [ancestors_of_parent?_eq_none hnone]
      exact fun _ hmem => absurd hmem List.not_mem_nil
    | child x parent hparent ih =>
      rw [ancestors_of_parent? hparent]
      exact List.forall_mem_cons.mpr ⟨h.canHold_parent hparent, ih⟩
  refine List.mem_filter.mpr ⟨mem_descendants_root (lt_size_of_isTag htag), ?_⟩
  simpa [isElement, htag] using habove id

end Fragment
end LiveMarkup
