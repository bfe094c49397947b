import LiveMarkup.Proofs.Dom.Import
import LiveMarkup.Proofs.Dom.Writing
import LiveMarkup.Proofs.Html.Copying

/-!
# The markup of imported nodes

An element that takes the nodes of a fragment has copies of all of them but the directives below it,
in the same places.  The copies are written as the fragment is without its directives: below the
element, and from every imported element on.  Either markup is also what is written by following the
links of the live tree and those of the fragment.

Main definitions:

- `Node.withoutDirectives`, `Fragment.withoutDirectives`: what is left of nodes and fragments.
- `Dom.IsCopy`: the live node that stands where a node of a fragment does.

Main results:

- `LiveNode.toNodes_liveAll`: nodes that are imported are the same nodes without directives.
- `Dom.exists_copy`: every node of the fragment has one copy, but for directives.
- `Dom.Reachable.import_keeps_markup`: the markup before and after.
-/

namespace LiveMarkup

/-! ## Directives -/

namespace Node

mutual

/-- A node without the directives below it. -/
def withoutDirectives : Node → Node
  | .element tag attrs children => .element tag attrs (withoutDirectivesAll children)
  | .text data => .text data
  | .comment data => .comment data
  | .directive data => .directive data

/-- Nodes without the directives among them and below them. -/
def withoutDirectivesAll : List Node → List Node
  | [] => []
  | .directive _ :: rest => withoutDirectivesAll rest
  | n :: rest => withoutDirectives n :: withoutDirectivesAll rest

end

theorem liveAll_eq_filterMap (ns : List Node) : liveAll ns = ns.filterMap live? := by
  induction ns with
  | nil => rfl
  | cons n rest ih =>
    rw [liveAll, ih, List.filterMap_cons]
    cases n.live? <;> rfl

end Node

namespace LiveNode

mutual

theorem toNode_of_live? : ∀ (n : Node) {tree : LiveNode}, n.live? = some tree →
    tree.toNode = n.withoutDirectives
  | .element tag attrs children, _, rfl => by
    rw [toNode, toNodes_liveAll children, Node.withoutDirectives]
  | .text _, _, rfl => rfl
  | .comment _, _, rfl => rfl

/-- Imported nodes are the nodes themselves, but for keys and directives. -/
theorem toNodes_liveAll : ∀ ns : List Node,
    toNodes (Node.liveAll ns) = Node.withoutDirectivesAll ns
  | [] => rfl
  | .directive _ :: rest => toNodes_liveAll rest
  | .element tag attrs children :: rest => by
    have hfirst := toNode_of_live? (.element tag attrs children) rfl
    rw [Node.liveAll, Node.live?, Option.toList_some, List.singleton_append, toNodes, hfirst,
      toNodes_liveAll rest, Node.withoutDirectivesAll]
    exact fun _ => nofun
  | .text data :: rest => by
    rw [Node.withoutDirectivesAll, ← toNodes_liveAll rest]
    · rfl
    · exact fun _ => nofun
  | .comment data :: rest => by
    rw [Node.withoutDirectivesAll, ← toNodes_liveAll rest]
    · rfl
    · exact fun _ => nofun

end

end LiveNode

namespace Fragment

/-- A fragment without its directives. -/
def withoutDirectives (f : Fragment) : Fragment :=
  ofNodes (Node.withoutDirectivesAll (f.forest root))

/-- The children of a node without the directives. -/
def shownChildren (f : Fragment) (id : Nat) : List Nat :=
  (f.children id).filter fun c => f.kind? c != some .directive

variable {f : Fragment}

theorem mem_shownChildren {id c : Nat} :
    c ∈ f.shownChildren id ↔ c ∈ f.children id ∧ f.kind? c ≠ some .directive := by
  rw [shownChildren, List.mem_filter, bne_iff_ne]

theorem nodup_shownChildren (f : Fragment) (id : Nat) : (f.shownChildren id).Nodup :=
  (f.nodup_children id).filter _

/-- A child is shown if and only if it is imported. -/
theorem isSome_live?_iff {id c : Nat} (hc : c ∈ f.children id) :
    ((f.node? c).bind Node.live?).isSome = (f.kind? c != some .directive) := by
  obtain ⟨content, hcontent⟩ :=
    Option.ne_none_iff_exists'.mp (content?_ne_none_of_mem_children hc)
  rw [node?, kind?, hcontent]
  cases content <;> rfl

/-- The markup of an element does not depend on where it is. -/
theorem outerMarkup_of_tag {id : Nat} {name : String} {attrs : List Attribute}
    (hcontent : f.content? id = some (.tag name attrs)) :
    f.outerMarkup id = Node.markup false (.element name attrs (f.forest id)) := by
  have hne : id ≠ root := Nat.ne_of_gt (pos_of_content? hcontent)
  rw [outerMarkup, if_neg hne, node?_of_content?_tag hcontent]
  rfl

/-- The element that a fragment of one tree begins with is written as it stands. -/
theorem outerMarkup_ofNodes_element (tag : String) (attrs : List Attribute)
    (children : List Node) :
    (ofNodes [.element tag attrs children]).outerMarkup 1 =
      Node.markup false (.element tag attrs children) := by
  have hroot : root < ({} : Fragment).size := Nat.one_pos
  have hnew : 1 < (({} : Fragment).append root (.tag tag attrs)).1.size := by
    rw [size_append _ hroot]
    exact Nat.lt_succ_self 1
  have hgraft : ofNodes [.element tag attrs children] =
      graftAll (({} : Fragment).append root (.tag tag attrs)).1 1 children :=
    graft_element hroot tag attrs children
  obtain ⟨hgrown, hforest⟩ := graftAll_spec hnew children
  have hself : 1 ∉ (({} : Fragment).append root (.tag tag attrs)).1.children 1 := fun hmem =>
    Nat.lt_irrefl 1 (lt_of_mem_children hmem).1
  have hcontent : (ofNodes [.element tag attrs children]).content? 1 = some (.tag tag attrs) := by
    rw [hgraft, hgrown.content_other 1 hnew hself]
    rfl
  have hbelow : (ofNodes [.element tag attrs children]).forest 1 =
      Node.joinedUnder [] children := by
    rw [hgraft, hforest]
    exact congrArg (Node.joinedUnder · children) (forest_append_self _ hroot)
  rw [outerMarkup_of_tag hcontent, hbelow]
  exact Node.markup_joined false (.element tag attrs children)

end Fragment

/-! ## Copies -/

namespace Dom

variable {d : Dom} {f : Fragment} {host : NodeId}

/-- The live node that stands where a node of a fragment does, without directives: the host for the
root, and further down the child with the same number. -/
inductive IsCopy (d : Dom) (f : Fragment) (host : NodeId) : Nat → NodeId → Prop where
  | root : d.IsCopy f host Fragment.root host
  | child {x y k : Nat} {p q : NodeId} (h : d.IsCopy f host x p)
    (hy : (f.shownChildren x)[k]? = some y) (hq : (d.children p)[k]? = some q) :
    d.IsCopy f host y q

/-- What is found where it is found, in order. -/
theorem map_filter_isSome {α β : Type} (g : α → Option β) {p : α → Bool} {xs : List α}
    (hp : ∀ x ∈ xs, (g x).isSome = p x) :
    (xs.filter p).map g = (xs.filterMap g).map some := by
  induction xs with
  | nil => rfl
  | cons x xs ih =>
    have hx := hp x List.mem_cons_self
    have hrest := ih fun y hy => hp y (List.mem_cons_of_mem x hy)
    cases hg : g x with
    | none =>
      rw [hg] at hx
      rw [List.filter_cons_of_neg (by simp [← hx]), List.filterMap_cons_none hg, hrest]
    | some b =>
      rw [hg] at hx
      rw [List.filter_cons_of_pos (by simp [← hx]), List.filterMap_cons_some hg, List.map_cons,
        List.map_cons, hg, hrest]

/-- Where the trees of a fragment were imported, the children show one tree for each child in the
fragment that is not a directive. -/
theorem WellFormed.map_tree?_children (h : d.WellFormed) {x : Nat} {p : NodeId}
    (hforest : d.forest p = Node.liveAll (f.forest x)) :
    (d.children p).map d.tree? =
      (f.shownChildren x).map fun y => (f.node? y).bind Node.live? := by
  have hlive : (d.children p).map d.tree? = (d.forest p).map some := by
    have hsome : ∀ c ∈ d.children p, (d.tree? c).isSome = true := by
      intro c hc
      obtain ⟨tree, htree⟩ := exists_tree? h (h.isLive_child hc)
      rw [htree, Option.isSome_some]
    have hall := map_filter_isSome d.tree? hsome
    rwa [List.filter_true] at hall
  have hkinds : ∀ c ∈ f.children x,
      ((f.node? c).bind Node.live?).isSome = (f.kind? c != some .directive) :=
    fun c hc => Fragment.isSome_live?_iff hc
  have hshown := map_filter_isSome (fun y => (f.node? y).bind Node.live?) hkinds
  rw [hlive, hforest, Node.liveAll_eq_filterMap, Fragment.shownChildren, hshown, f.forest_eq,
    List.filterMap_filterMap]
  rfl

/-- A child shows the tree of the child with the same number in the fragment. -/
theorem WellFormed.tree?_child (h : d.WellFormed) {x y k : Nat} {p q : NodeId}
    (hforest : d.forest p = Node.liveAll (f.forest x)) (hy : (f.shownChildren x)[k]? = some y)
    (hq : (d.children p)[k]? = some q) : d.tree? q = (f.node? y).bind Node.live? := by
  have hk := congrArg (fun trees => trees[k]?) (h.map_tree?_children hforest)
  simpa [hy, hq] using hk

/-- A copy of the root or of an element shows below it what the fragment has there. -/
theorem IsCopy.forest (h : d.WellFormed) (hbuilt : f.BuiltUnder Fragment.CanHold)
    (hhost : d.forest host = Node.liveAll (f.forest Fragment.root)) {x : Nat} {p : NodeId}
    (hcopy : d.IsCopy f host x p) (hx : f.CanHold x) :
    d.forest p = Node.liveAll (f.forest x) := by
  induction hcopy with
  | root => exact hhost
  | @child x y k p q _ hy hq ih =>
    obtain ⟨hchild, -⟩ := Fragment.mem_shownChildren.mp (List.mem_of_getElem? hy)
    have hparent := Fragment.mem_children_iff.mp hchild
    have htree := h.tree?_child (ih (hbuilt.canHold_parent hparent)) hy hq
    have hne : y ≠ Fragment.root := Nat.ne_of_gt (Nat.zero_lt_of_lt (Fragment.parent_lt hparent))
    obtain ⟨name, attrs, hcontent⟩ := Fragment.isTag_iff.mp (hx.resolve_left hne)
    rw [Fragment.node?_of_content?_tag hcontent] at htree
    exact (data?_of_tree?_element h htree).2

/-- A copy shows the tree of its node. -/
theorem IsCopy.tree? (h : d.WellFormed) (hbuilt : f.BuiltUnder Fragment.CanHold)
    (hhost : d.forest host = Node.liveAll (f.forest Fragment.root)) {x : Nat} {q : NodeId}
    (hcopy : d.IsCopy f host x q) (hx : x ≠ Fragment.root) :
    d.tree? q = (f.node? x).bind Node.live? := by
  cases hcopy with
  | root => exact absurd rfl hx
  | child hcopy hy hq =>
    have hchild := (Fragment.mem_shownChildren.mp (List.mem_of_getElem? hy)).1
    have hholds := hbuilt.canHold_parent (Fragment.mem_children_iff.mp hchild)
    exact h.tree?_child (hcopy.forest h hbuilt hhost hholds) hy hq

/-- The root has one copy, the host. -/
theorem isCopy_root_iff {q : NodeId} : d.IsCopy f host Fragment.root q ↔ q = host := by
  constructor
  · intro hcopy
    cases hcopy with
    | root => rfl
    | child _ hy _ =>
      have hchild := (Fragment.mem_shownChildren.mp (List.mem_of_getElem? hy)).1
      exact absurd (Fragment.lt_of_mem_children hchild).1 (Nat.not_lt_zero _)
  · rintro rfl
    exact .root

/-- Where a node has one copy, its children have those at the same numbers. -/
theorem isCopy_child_iff {x y k : Nat} {p q : NodeId} (hp : ∀ q, d.IsCopy f host x q ↔ q = p)
    (hk : (f.shownChildren x)[k]? = some y) :
    d.IsCopy f host y q ↔ (d.children p)[k]? = some q := by
  have hparent := Fragment.mem_children_iff.mp
    (Fragment.mem_shownChildren.mp (List.mem_of_getElem? hk)).1
  constructor
  · intro hcopy
    cases hcopy with
    | root => cases hparent.symm.trans f.parent?_root
    | @child x' _ k' p' _ hcopy hy hq =>
      have hchild := (Fragment.mem_shownChildren.mp (List.mem_of_getElem? hy)).1
      cases hparent.symm.trans (Fragment.mem_children_iff.mp hchild)
      cases (hp p').mp hcopy
      have hsame : k = k' := (List.getElem?_inj (List.getElem?_eq_some_iff.mp hk).1
        (f.nodup_shownChildren x)).mp (hk.trans hy.symm)
      rwa [hsame]
  · exact .child ((hp p).mpr rfl) hk

/-- Every node of the fragment but the directives has one copy. -/
theorem exists_copy (h : d.WellFormed) (hbuilt : f.BuiltUnder Fragment.CanHold)
    (hhost : d.forest host = Node.liveAll (f.forest Fragment.root)) {x : Nat} (hx : x < f.size)
    (hkind : f.kind? x ≠ some .directive) : ∃ id, ∀ q, d.IsCopy f host x q ↔ q = id := by
  induction x using Nat.strongRecOn with
  | ind x ih =>
    by_cases hroot : x = Fragment.root
    · subst hroot
      exact ⟨host, fun _ => isCopy_root_iff⟩
    · obtain ⟨above, hparent⟩ := Option.ne_none_iff_exists'.mp
        (Fragment.parent?_ne_none (Nat.pos_of_ne_zero hroot) hx)
      have hlt := Fragment.parent_lt hparent
      have hholds := hbuilt.canHold_parent hparent
      have habove : f.kind? above ≠ some .directive := by
        rcases hholds with rfl | htag
        · simp
        · rw [beq_iff_eq.mp htag]
          decide
      obtain ⟨p, hp⟩ := ih above hlt (hlt.trans hx) habove
      obtain ⟨k, hk⟩ := List.getElem?_of_mem
        (Fragment.mem_shownChildren.mpr ⟨Fragment.mem_children_iff.mpr hparent, hkind⟩)
      -- There are as many children as in the fragment, so there is one with this number.
      have hmap := h.map_tree?_children (((hp p).mpr rfl).forest h hbuilt hhost hholds)
      have hlengths := congrArg List.length hmap
      rw [List.length_map, List.length_map] at hlengths
      have hlength : k < (d.children p).length := by
        rw [hlengths]
        exact (List.getElem?_eq_some_iff.mp hk).1
      refine ⟨(d.children p)[k], fun q => ?_⟩
      rw [isCopy_child_iff hp hk, List.getElem?_eq_getElem hlength, Option.some.injEq, eq_comm]

/-- A copy of an element is written as the element without directives. -/
theorem IsCopy.outerMarkup_eq (h : d.WellFormed) (hbuilt : f.BuiltUnder Fragment.CanHold)
    (hhost : d.forest host = Node.liveAll (f.forest Fragment.root)) {x : Nat} {q : NodeId}
    (hcopy : d.IsCopy f host x q) {n : Node} (htag : f.isTag x = true)
    (hnode : f.node? x = some n) :
    d.outerMarkup q = (Fragment.ofNodes [n.withoutDirectives]).outerMarkup 1 := by
  obtain ⟨name, attrs, hcontent⟩ := Fragment.isTag_iff.mp htag
  have hne : x ≠ Fragment.root := Nat.ne_of_gt (Fragment.pos_of_content? hcontent)
  have htree := hcopy.tree? h hbuilt hhost hne
  rw [Fragment.node?_of_content?_tag hcontent] at hnode htree
  cases hnode
  have hsame := LiveNode.toNode_of_live? (.element name attrs (f.forest x)) rfl
  rw [Node.withoutDirectives, Fragment.outerMarkup_ofNodes_element, ← Node.withoutDirectives,
    ← hsame, outerMarkup, htree]
  rfl

/-- Into an element without children that does not keep texts as they are, markup is imported with
all its nodes but the directives.  What then lies below the element is written as the fragment is
without its directives, from its trees and by following the links alike.  Where nothing but the root
and elements holds nodes, as in every fragment from the HTML parser, each element has one copy,
which is written as the element is without the directives below it. -/
theorem Reachable.import_keeps_markup (hd : d.Reachable) (hhost : d.isElement host = true)
    (hempty : d.children host = []) (hraw : d.keepsText host = false) {parser : MarkupParser}
    {markup : String} (hparse : parser markup = .ok f) :
    ∃ added imported, Dom.parseInto parser d host markup = .ok (added, imported) ∧
      (imported.slots.size ≤ maxSlots →
        imported.innerMarkup host = f.withoutDirectives.markup ∧
        String.join ((imported.children host).map imported.written) =
          f.withoutDirectives.written Fragment.root ∧
        (f.BuiltUnder Fragment.CanHold → ∀ x n, f.isTag x = true → f.node? x = some n →
          ∃ id, (∀ q, imported.IsCopy f host x q ↔ q = id) ∧
            imported.outerMarkup id =
              (Fragment.ofNodes [n.withoutDirectives]).outerMarkup 1 ∧
            imported.written id = (Fragment.ofNodes [n.withoutDirectives]).written 1)) := by
  obtain ⟨added, imported, himport⟩ := exists_parseInto hhost hparse
  refine ⟨added, imported, himport, fun hsize => ?_⟩
  have hwf := hd.wellFormed ((slots_size_le_parseInto himport).trans hsize)
  have hwf' := (hd.parseInto himport).wellFormed hsize
  obtain ⟨hdata, hforest⟩ := hwf.forest_parseInto hempty hparse himport hsize
  have hraw' : imported.keepsText host = false := by
    rw [keepsText, tag?, element?, hdata]
    exact hraw
  have hinner : imported.innerMarkup host = f.withoutDirectives.markup := by
    rw [innerMarkup, hraw', hforest, LiveNode.toNodes_liveAll, Fragment.withoutDirectives,
      Fragment.markup_ofNodes]
  refine ⟨hinner, ?_, ?_⟩
  · rw [← hwf'.innerMarkup_eq_join, hinner, ← Fragment.outerMarkup_eq_written]
    rfl
  · intro hbuilt x n htag hnode
    have hkind : f.kind? x ≠ some .directive := by
      rw [beq_iff_eq.mp htag]
      decide
    obtain ⟨id, hid⟩ := exists_copy hwf' hbuilt hforest (Fragment.lt_size_of_isTag htag) hkind
    have houter := ((hid id).mpr rfl).outerMarkup_eq hwf' hbuilt hforest htag hnode
    refine ⟨id, hid, houter, ?_⟩
    rw [← hwf'.outerMarkup_eq_written, houter, Fragment.outerMarkup_eq_written]

/-- Texts on both sides of a directive, and an element with a script and an element without content:
the text in the script is written as it stands. -/
theorem Reachable.import_keeps_markup_of_script :
    let f := Fragment.ofNodes [.text "a<", .directive "!x", .text "b", .element "p" [⟨"id", "k"⟩]
      [.directive "?y", .element "script" [] [.text "1 < 2"], .element "br" [] []]]
    let parser : MarkupParser := fun _ => .ok f
    let d := [Operation.createElement "main"].foldl Dom.perform {}
    let imported := d.perform (.parseInto parser ⟨0, 0⟩ "")
    d.isElement ⟨0, 0⟩ = true ∧ d.children ⟨0, 0⟩ = [] ∧ d.keepsText ⟨0, 0⟩ = false ∧
      imported.slots.size ≤ maxSlots ∧
      imported.innerMarkup ⟨0, 0⟩ = "a&lt;b<p id=\"k\"><script>1 < 2</script><br></p>" ∧
      imported.IsCopy f ⟨0, 0⟩ 6 ⟨4, 0⟩ ∧
      imported.outerMarkup ⟨4, 0⟩ = "<script>1 < 2</script>" ∧
      imported.written ⟨4, 0⟩ = "<script>1 < 2</script>" := by
  intro f parser d imported
  have hd : d.Reachable := Reachable.empty.foldl_perform _
  have hhost : d.isElement ⟨0, 0⟩ = true := by decide +kernel
  have hempty : d.children ⟨0, 0⟩ = [] := by decide +kernel
  have hraw : d.keepsText ⟨0, 0⟩ = false := by decide +kernel
  have hparse : parser "" = .ok f := rfl
  obtain ⟨added, imported', himport, hspec⟩ :=
    hd.import_keeps_markup hhost hempty hraw hparse
  have himported : imported = imported' := by
    show d.after ((Dom.parseInto parser d ⟨0, 0⟩ "").map (·.2)) = imported'
    rw [himport]
    rfl
  rw [← himported] at hspec
  have hsize : imported.slots.size ≤ maxSlots := by decide +kernel
  obtain ⟨hinner, -, houter⟩ := hspec hsize
  have hcopy : imported.IsCopy f ⟨0, 0⟩ 6 ⟨4, 0⟩ := by
    have hparagraph : imported.IsCopy f ⟨0, 0⟩ 4 ⟨3, 0⟩ :=
      .child (k := 2) .root (by decide +kernel) (by decide +kernel)
    exact .child (k := 0) hparagraph (by decide +kernel) (by decide +kernel)
  have hnode : f.node? 6 = some (.element "script" [] (f.forest 6)) :=
    Fragment.node?_of_content?_tag (by decide +kernel)
  obtain ⟨id, hid, hmarkup, hwritten⟩ :=
    houter (Fragment.builtUnder_ofNodes _) 6 _ (by decide +kernel) hnode
  cases (hid _).mp hcopy
  have hscript : (Fragment.ofNodes [Node.withoutDirectives
      (.element "script" [] (f.forest 6))]).outerMarkup 1 = "<script>1 < 2</script>" := by
    decide +kernel
  exact ⟨hhost, hempty, hraw, hsize, hinner.trans (by decide +kernel), hcopy,
    hmarkup.trans hscript,
    hwritten.trans ((Fragment.outerMarkup_eq_written _ _).symm.trans hscript)⟩

end Dom
end LiveMarkup
