import LiveMarkup.Html.Copy
import LiveMarkup.Proofs.Markup.Nesting

/-!
# The copy of a parsed tree into a fragment

Markup becomes a parsed tree, which is copied into an empty fragment, with a limit on how deep
elements may be nested.  The copy stops at the first element in document order that lies deeper.
Where there is none it is the graft of the nodes that the tree stands for: the fragment holds them,
nested as they were, with adjacent texts made one, and nothing else.  Nothing is assumed of the
tree, nor of the algorithm that builds it.

Main definitions:

- `Html.ParsedNode.content`: the nodes that a parsed document stands for.
- `Fragment.graftWithin`: the graft of trees in which no element lies too deep.

Main results:

- `Fragment.copyAll_eq`, `Fragment.ofParsed_eq`: the copy is that graft.
- `Fragment.size_ofNodes`: the nodes of the fragment of trees are those in its trees.
- `Fragment.builtUnder_ofNodes`, `HtmlConfig.builtUnder_of_parse`: nothing but the root and elements
  holds nodes in such a fragment.
- `HtmlConfig.parserOver_copies_tree`: what the parser returns over every algorithm.
-/

namespace LiveMarkup

/-! ## What a parsed tree stands for -/

namespace Html.ParsedNode

mutual

/-- The nodes that those below a parsed node stand for. -/
def nodesBelow : ParsedNode → List Node
  | .node _ children => nodesOf children

/-- The nodes that parsed nodes stand for, in document order. -/
def nodesOf : List ParsedNode → List Node
  | [] => []
  | n :: rest => n.node?.toList ++ nodesOf rest

/-- The node that a parsed node stands for.  Contents that an element holds apart count as its
children.  A document that is not held by an element stands for none. -/
def node? : ParsedNode → Option Node
  | .node (.element name attrs (some contents)) _ =>
    some (.element name.base (attrs.map (·.plain)) contents.nodesBelow)
  | .node (.element name attrs none) children =>
    some (.element name.base (attrs.map (·.plain)) (nodesOf children))
  | .node (.text contents) _ => some (.text contents)
  | .node (.comment contents) _ => some (.comment contents)
  | .node (.doctype name) _ => some (.directive (doctypeText name))
  | .node (.instruction target contents) _ =>
    some (.directive (instructionText target contents))
  | .node .document _ => none

end

/-- The nodes that a parsed document stands for: those below the wrappers at its top. -/
def content (document : ParsedNode) : List Node :=
  document.children.flatMap nodesBelow

end Html.ParsedNode

/-! ## Sizes of trees -/

namespace Node

/-- Nodes are counted one after the other. -/
theorem sizeAll_append (first second : List Node) :
    sizeAll (first ++ second) = sizeAll first + sizeAll second := by
  induction first with
  | nil => rw [List.nil_append, sizeAll, Nat.zero_add]
  | cons n first ih => rw [List.cons_append, sizeAll, sizeAll, ih, Nat.add_assoc]

theorem sizeAll_concat (before : List Node) (n : Node) :
    sizeAll (before ++ [n]) = sizeAll before + n.size := by
  rw [sizeAll_append, sizeAll, sizeAll, Nat.add_zero]

end Node

namespace Fragment

open Html

variable {f f' : Fragment} {parent : Nat}

/-! ## The copy and the graft -/

/-- Trees grafted under a node that is `depth` elements deep, unless an element lies too deep: then
the first one is reported. -/
def graftWithin (limit depth : Nat) (f : Fragment) (parent : Nat) (ns : List Node) :
    Except ParseError Fragment :=
  match Node.tooDeep? limit depth ns with
  | some tag => .error (.depthLimit limit tag)
  | none => .ok (graftAll f parent ns)

/-- Trees are grafted one after the other. -/
theorem graftAll_append (f : Fragment) (parent : Nat) (first second : List Node) :
    graftAll f parent (first ++ second) = graftAll (graftAll f parent first) parent second := by
  induction first generalizing f with
  | nil => rfl
  | cons n first ih => rw [List.cons_append, graftAll, graftAll, ih]

/-- Where no element among the first trees lies too deep, the others follow. -/
theorem graftWithin_append (limit depth : Nat) (f : Fragment) (parent : Nat)
    (first second : List Node) :
    graftWithin limit depth f parent (first ++ second) =
      (graftWithin limit depth f parent first).bind fun f =>
        graftWithin limit depth f parent second := by
  rw [graftWithin, Node.tooDeep?_append, graftWithin, graftAll_append]
  cases Node.tooDeep? limit depth first with
  | some tag => rfl
  | none => rfl

/-- An element within the limit makes room for its children, which are one element deeper. -/
theorem graftWithin_element (limit depth : Nat) (f : Fragment) (parent : Nat) (tag : String)
    (attrs : List Attribute) (children : List Node) :
    graftWithin limit depth f parent [.element tag attrs children] =
      if limit ≤ depth then .error (.depthLimit limit tag)
      else
        graftWithin limit (depth + 1) (f.appendElement parent tag attrs).1
          (f.appendElement parent tag attrs).2 children := by
  rw [graftWithin, Node.tooDeep?_element]
  by_cases hdeep : limit ≤ depth
  · rw [if_pos hdeep, if_pos hdeep]
  · rw [if_neg hdeep, if_neg hdeep]
    rfl

mutual

/-- What lies below a parsed node is grafted in its place. -/
theorem copyBelow_eq (limit depth : Nat) (f : Fragment) (parent : Nat) :
    ∀ n : ParsedNode,
      copyBelow limit depth f parent n = graftWithin limit depth f parent n.nodesBelow
  | .node _ children => by
    rw [copyBelow, ParsedNode.nodesBelow]
    exact copyAll_eq limit depth f parent children

/-- The copy of parsed nodes is the graft of the nodes that they stand for, up to the first element
that lies too deep. -/
theorem copyAll_eq (limit depth : Nat) (f : Fragment) (parent : Nat) :
    ∀ ns : List ParsedNode, copyAll limit depth f parent ns =
      graftWithin limit depth f parent (ParsedNode.nodesOf ns)
  | [] => rfl
  | n :: rest => by
    rw [copyAll, ParsedNode.nodesOf, graftWithin_append, copy_eq limit depth f parent n]
    cases graftWithin limit depth f parent n.node?.toList with
    | error e => rfl
    | ok f' => exact copyAll_eq limit depth f' parent rest

/-- The copy of a parsed node is the graft of the one that it stands for, if there is one. -/
theorem copy_eq (limit depth : Nat) (f : Fragment) (parent : Nat) :
    ∀ n : ParsedNode,
      copy limit depth f parent n = graftWithin limit depth f parent n.node?.toList
  | .node (.element name attrs (some contents)) children => by
    rw [copy, ParsedNode.node?, Option.toList_some, graftWithin_element]
    split
    · rfl
    · exact copyBelow_eq limit (depth + 1) _ _ contents
  | .node (.element name attrs none) children => by
    rw [copy, ParsedNode.node?, Option.toList_some, graftWithin_element]
    split
    · rfl
    · exact copyAll_eq limit (depth + 1) _ _ children
  | .node (.text _) _ => rfl
  | .node (.comment _) _ => rfl
  | .node (.doctype _) _ => rfl
  | .node (.instruction _ _) _ => rfl
  | .node .document _ => rfl

end

/-- The wrappers at the top leave no trace in the fragment of a document. -/
theorem ofParsed_eq (limit : Nat) (document : ParsedNode) :
    ofParsed limit document = graftWithin limit 0 {} root document.content := by
  rw [ofParsed, ParsedNode.content]
  generalize ({} : Fragment) = f
  induction document.children generalizing f with
  | nil => rfl
  | cons wrapper wrappers ih =>
    rw [List.foldlM_cons, List.flatMap_cons, graftWithin_append, copyBelow_eq]
    cases graftWithin limit 0 f root wrapper.nodesBelow with
    | error e => rfl
    | ok f' => exact ih f'

/-! ## No other nodes -/

/-- A text that joins another adds no node, and one that does not adds one. -/
theorem size_appendText (hparent : parent < f.size) (data : String) :
    (f.appendText parent data).1.size + Node.sizeAll (f.forest parent) =
      f.size + Node.sizeAll ((f.appendText parent data).1.forest parent) := by
  by_cases htext : ∃ last before, (f.children parent).getLast? = some last ∧
      f.content? last = some (.text before)
  · obtain ⟨last, before, hlast, hbefore⟩ := htext
    obtain ⟨front, content, -, hcontent, hforest⟩ := forest_eq_append hlast
    cases hbefore.symm.trans hcontent
    rw [appendText_of_text hlast hbefore, size_withContent, forest_withContent _ hlast hbefore,
      hforest, List.dropLast_concat, Node.sizeAll_concat, Node.sizeAll_concat]
    rfl
  · have hnone : ∀ last before, (f.children parent).getLast? = some last →
        f.content? last ≠ some (.text before) :=
      fun last before hlast hbefore => htext ⟨last, before, hlast, hbefore⟩
    rw [appendText_of_no_text hnone, size_append _ hparent,
      forest_append _ hparent (Grown.refl _ _), Node.sizeAll_concat, Content.toNode, Node.size]
    omega

mutual

/-- A fragment grows by as many nodes as the trees below the node that a tree is grafted under. -/
theorem size_graft {f : Fragment} {parent : Nat} (hparent : parent < f.size) :
    ∀ n : Node, (graft f parent n).size + Node.sizeAll (f.forest parent) =
      f.size + Node.sizeAll ((graft f parent n).forest parent)
  | .element tag attrs children => by
    have hsize := size_append (.tag tag attrs) hparent
    have hnew : f.size < (f.append parent (.tag tag attrs)).1.size := by omega
    have hbelow := size_graftAll hnew children
    rw [forest_append_self _ hparent, Node.sizeAll, hsize] at hbelow
    rw [graft_element hparent, forest_append _ hparent (graftAll_spec hnew children).1,
      Node.sizeAll_concat, Content.toNode, Node.size]
    omega
  | .text data => size_appendText hparent data
  | .comment data => by
    rw [graft, appendComment, size_append _ hparent, forest_append _ hparent (Grown.refl _ _),
      Node.sizeAll_concat, Content.toNode, Node.size]
    omega
  | .directive data => by
    rw [graft, appendDirective, size_append _ hparent, forest_append _ hparent (Grown.refl _ _),
      Node.sizeAll_concat, Content.toNode, Node.size]
    omega

/-- A fragment grows by as many nodes as the trees below the node that it grows under. -/
theorem size_graftAll {f : Fragment} {parent : Nat} (hparent : parent < f.size) :
    ∀ ns : List Node, (graftAll f parent ns).size + Node.sizeAll (f.forest parent) =
      f.size + Node.sizeAll ((graftAll f parent ns).forest parent)
  | [] => rfl
  | n :: rest => by
    have hfirst := size_graft hparent n
    have hrest := size_graftAll
      (Nat.lt_of_lt_of_le hparent (graft_spec hparent n).1.size_le) rest
    rw [graftAll]
    omega

end

/-- The nodes of the fragment of trees are the root and those in its trees. -/
theorem size_ofNodes (ns : List Node) :
    (ofNodes ns).size = Node.sizeAll ((ofNodes ns).forest root) + 1 := by
  have hroot : root < ({} : Fragment).size := Nat.one_pos
  have hempty : ({} : Fragment).forest root = [] := by
    rw [forest_eq]
    rfl
  have hsize := size_graftAll hroot ns
  rw [hempty, Node.sizeAll, Nat.add_zero] at hsize
  rw [ofNodes, hsize, Nat.add_comm]
  rfl

/-! ## Only the root and elements hold nodes -/

/-- Growth under a node leaves it what it was. -/
theorem Grown.canHold (h : f.Grown f' parent) (hparent : parent < f.size)
    (hholds : f.CanHold parent) : f'.CanHold parent := by
  have hnot : parent ∉ f.children parent := fun hc =>
    Nat.lt_irrefl _ (lt_of_mem_children hc).1
  refine hholds.imp_right fun htag => ?_
  rwa [isTag, kind?, h.content_other parent hparent hnot]

mutual

/-- A tree grafted under the root or under an element is appended under elements only. -/
theorem BuiltUnder.graft {f : Fragment} {parent : Nat} (h : f.BuiltUnder CanHold)
    (hparent : parent < f.size) (hholds : f.CanHold parent) :
    ∀ n : Node, (f.graft parent n).BuiltUnder CanHold
  | .element tag attrs children => by
    have hnew : f.size < (f.append parent (.tag tag attrs)).1.size := by
      rw [size_append _ hparent]
      exact Nat.lt_succ_self _
    have htag : (f.append parent (.tag tag attrs)).1.isTag f.size = true := by
      refine isTag_iff.mpr ⟨tag, attrs, ?_⟩
      rw [content?_append _ hparent, if_pos rfl]
    rw [graft_element hparent]
    exact (h.element hholds tag attrs).graftAll hnew (Or.inr htag) children
  | .text data => h.text hholds data
  | .comment data => h.comment hholds data
  | .directive data => h.directive hholds data

/-- Trees grafted under the root or under an element are appended under elements only. -/
theorem BuiltUnder.graftAll {f : Fragment} {parent : Nat} (h : f.BuiltUnder CanHold)
    (hparent : parent < f.size) (hholds : f.CanHold parent) :
    ∀ ns : List Node, (f.graftAll parent ns).BuiltUnder CanHold
  | [] => h
  | n :: rest => by
    have hgrown := (graft_spec hparent n).1
    exact (h.graft hparent hholds n).graftAll (Nat.lt_of_lt_of_le hparent hgrown.size_le)
      (hgrown.canHold hparent hholds) rest

end

/-- In the fragment of trees nothing but the root and elements holds nodes. -/
theorem builtUnder_ofNodes (ns : List Node) : (ofNodes ns).BuiltUnder CanHold :=
  BuiltUnder.empty.graftAll Nat.one_pos (Or.inl rfl) ns

end Fragment

/-! ## The parser -/

namespace HtmlConfig

variable {build : Html.TreeBuilder} {config : HtmlConfig} {markup : String} {f : Fragment}

/-- The parser grafts what the tree of the markup stands for, within the limit. -/
theorem parserOver_eq (build : Html.TreeBuilder) (config : HtmlConfig) (markup : String) :
    config.parserOver build markup =
      Fragment.graftWithin config.maxDepth 0 {} Fragment.root
        (build config.context markup).content :=
  Fragment.ofParsed_eq config.maxDepth (build config.context markup)

/-- A fragment from the parser is that of the tree, in which no element lies too deep. -/
theorem parserOver_eq_ok_iff :
    config.parserOver build markup = .ok f ↔
      Node.tooDeep? config.maxDepth 0 (build config.context markup).content = none ∧
        f = Fragment.ofNodes (build config.context markup).content := by
  rw [parserOver_eq, Fragment.graftWithin]
  cases Node.tooDeep? config.maxDepth 0 (build config.context markup).content with
  | some tag => simp
  | none => simp [Fragment.ofNodes, eq_comm]

/-- In a fragment from the parser nothing but the root and elements holds nodes. -/
theorem builtUnder_of_parse (hparse : config.parserOver build markup = .ok f) :
    f.BuiltUnder Fragment.CanHold := by
  obtain ⟨-, rfl⟩ := parserOver_eq_ok_iff.mp hparse
  exact Fragment.builtUnder_ofNodes _

/-- Whatever tree an algorithm builds, the parser returns a fragment if and only if no element of
the tree lies more than `config.maxDepth` elements deep, where wrappers at the top do not count and
what a template holds does.  Otherwise it reports the first element in document order that lies
deeper.  The fragment holds the nodes of the tree, with adjacent texts made one, and no other nodes;
its elements are at most `config.maxDepth` deep. -/
theorem parserOver_copies_tree (build : Html.TreeBuilder) (config : HtmlConfig)
    (markup : String) :
    let nodes := (build config.context markup).content
    let elements := Node.nestingsAll nodes
    ((∃ f, config.parserOver build markup = .ok f) ↔
        ∀ e ∈ elements, e.depth ≤ config.maxDepth) ∧
      (∀ error, config.parserOver build markup = .error error ↔
        ∃ first, elements.find? (fun e => config.maxDepth < e.depth) = some first ∧
          error = .depthLimit config.maxDepth first.tag) ∧
      ∀ f, config.parserOver build markup = .ok f →
        f.forest Fragment.root = Node.joinedUnder [] nodes ∧
          f.size = Node.sizeAll (f.forest Fragment.root) + 1 ∧
          ∀ id, f.isTag id = true → f.depth id ≤ config.maxDepth := by
  intro nodes elements
  have htooDeep : Node.tooDeep? config.maxDepth 0 nodes =
      (elements.find? fun e => config.maxDepth < e.depth).map (·.tag) := by
    simp only [Node.tooDeep?, Nat.zero_add]
    rfl
  have hok : ∀ f, config.parserOver build markup = .ok f ↔
      (∀ e ∈ elements, e.depth ≤ config.maxDepth) ∧ f = Fragment.ofNodes nodes := by
    intro f
    rw [parserOver_eq_ok_iff, htooDeep, Option.map_eq_none_iff, List.find?_eq_none]
    simp only [decide_eq_true_eq, Nat.not_lt]
    rfl
  refine ⟨?_, ?_, ?_⟩
  · constructor
    · rintro ⟨f, hf⟩
      exact ((hok f).mp hf).1
    · intro hshallow
      exact ⟨_, (hok _).mpr ⟨hshallow, rfl⟩⟩
  · intro error
    rw [parserOver_eq, Fragment.graftWithin, htooDeep]
    cases elements.find? fun e => config.maxDepth < e.depth with
    | none => simp
    | some first => simp [eq_comm]
  · intro f hf
    obtain ⟨hshallow, rfl⟩ := (hok f).mp hf
    refine ⟨Fragment.forest_ofNodes nodes, Fragment.size_ofNodes nodes, ?_⟩
    intro id htag
    have hmem := (Fragment.builtUnder_ofNodes nodes).nesting_mem htag
    rw [Fragment.forest_ofNodes, Node.nestingsAll_joinedUnder, Node.nestingsAll,
      List.nil_append] at hmem
    exact hshallow _ hmem

/-- An attribute with a prefix, and a template whose contents stand apart: what lies in them is one
deeper than the template. -/
theorem parserOver_copies_tree_of_template :
    let element (name : String) (children : List Html.ParsedNode) : Html.ParsedNode :=
      .node (.element { base := name } [] none) children
    let image : Html.ParsedNode := .node (.element { base := "svg" }
      [{ name := { spacePrefix? := some "xlink", base := "href" }, value := "x" }] none)
      [.node (.text "t") []]
    let contents : Html.ParsedNode := .node .document [element "i" [element "b" []]]
    let template : Html.ParsedNode :=
      .node (.element { base := "template" } [] (some contents)) []
    let build : Html.TreeBuilder := fun _ _ => .node .document [element "html" [image, template]]
    let markup := "<svg xlink:href=x>t</svg><template><i><b>"
    HtmlConfig.parserOver build { maxDepth := 2 } markup = .error (.depthLimit 2 "b") ∧
      ∃ f, HtmlConfig.parserOver build { maxDepth := 3 } markup = .ok f ∧
        f.forest Fragment.root =
          [.element "svg" [⟨"xlink:href", "x"⟩] [.text "t"],
            .element "template" [] [.element "i" [] [.element "b" [] []]]] ∧
        f.size = 6 ∧ ∀ id, f.isTag id = true → f.depth id ≤ 3 := by
  intro element image contents template build markup
  obtain ⟨-, hrefused, -⟩ := parserOver_copies_tree build { maxDepth := 2 } markup
  obtain ⟨hreturned, -, hcopied⟩ := parserOver_copies_tree build { maxDepth := 3 } markup
  refine ⟨(hrefused _).mpr ⟨⟨3, "b"⟩, by decide, rfl⟩, ?_⟩
  obtain ⟨f, hf⟩ := hreturned.mpr (by decide)
  obtain ⟨hforest, hsize, hdepth⟩ := hcopied f hf
  have hnodes : f.forest Fragment.root =
      [.element "svg" [⟨"xlink:href", "x"⟩] [.text "t"],
        .element "template" [] [.element "i" [] [.element "b" [] []]]] :=
    hforest.trans (by rfl)
  refine ⟨f, hf, hnodes, ?_, hdepth⟩
  rw [hsize, hnodes]
  rfl

/-- Two wrappers: directives, texts that meet across an inner document, which stands for nothing,
and an element of which the contents are copied and the children are not. -/
example :
    let text (contents : String) : Html.ParsedNode := .node (.text contents) []
    let template : Html.ParsedNode := .node (.element { base := "template" } []
      (some (.node .document [.node (.comment "c") []]))) [text "not copied"]
    let document : Html.ParsedNode := .node .document
      [.node .document [.node (.doctype "html") [], .node (.instruction "x" "y") [], text "a"],
        .node .document [.node .document [text "not copied"], text "b", template]]
    (Fragment.ofParsed 1 document).map (fun f => (f.markup, f.size)) =
      .ok ("<!DOCTYPE html><?x y>ab<template><!--c--></template>", 6) := by
  decide +kernel

end HtmlConfig
end LiveMarkup
