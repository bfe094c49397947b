import LiveMarkup.Markup.Fragment
import Mathlib.Data.List.Basic

/-!
# Grafting trees

When trees are grafted under a node of a fragment, the trees below that node are the ones from
before followed by the new ones, but that a text joins a text before it.  No other node gets new
children.

Main definitions:

- `Node.join`, `Node.joined`, `Node.joinedUnder`: trees in which adjacent texts are one.
- `Fragment.Grown`: a fragment grown under a node.

Main results:

- `Fragment.graftAll_spec`: the trees below the node after grafting.
- `Fragment.forest_ofNodes`, `Fragment.markup_ofNodes`: the trees and the markup of the fragment of
  trees.
-/

namespace LiveMarkup

/-! ## Adjacent texts -/

namespace Node

/-- Put a node after others; a text joins a text before it. -/
def join (before : List Node) (n : Node) : List Node :=
  match n, before.getLast? with
  | .text data, some (.text last) => before.dropLast ++ [.text (last ++ data)]
  | n, _ => before ++ [n]

/-- A text behind a text is joined to it. -/
theorem join_concat_text (front : List Node) (last data : String) :
    join (front ++ [.text last]) (.text data) = front ++ [.text (last ++ data)] := by
  simp [join]

/-- A text behind anything but a text stands alone. -/
theorem join_concat {m : Node} (hm : ∀ last, m ≠ .text last) (front : List Node) (data : String) :
    join (front ++ [m]) (.text data) = front ++ [m] ++ [.text data] := by
  cases m with
  | text last => exact absurd rfl (hm last)
  | element tag attrs children => simp [join]
  | comment last => simp [join]
  | directive last => simp [join]

mutual

/-- A node below which adjacent texts are one. -/
def joined : Node → Node
  | .element tag attrs children => .element tag attrs (joinedUnder [] children)
  | .text data => .text data
  | .comment data => .comment data
  | .directive data => .directive data

/-- Nodes put one after the other behind others, with adjacent texts made one. -/
def joinedUnder (before : List Node) : List Node → List Node
  | [] => before
  | n :: rest => joinedUnder (join before (joined n)) rest

end

end Node

namespace Fragment

variable {f f' : Fragment}

/-! ## Reading a fragment -/

/-- The trees below a node are made of its children and the trees below them. -/
theorem forest_eq (f : Fragment) (id : Nat) :
    f.forest id = (f.children id).filterMap fun c =>
      (f.content? c).map fun content => content.toNode (f.forest c) := by
  rw [forest]
  simp

/-- Children have content. -/
theorem content?_ne_none_of_mem_children {id c : Nat} (hc : c ∈ f.children id) :
    f.content? c ≠ none := by
  obtain ⟨hlt, hsize⟩ := lt_of_mem_children hc
  exact f.linked.content (Nat.zero_lt_of_lt hlt) hsize

/-- A number that is not taken yet is that of a node without children. -/
theorem children_of_size_le {id : Nat} (hid : f.size ≤ id) : f.children id = [] := by
  refine List.eq_nil_iff_forall_not_mem.mpr fun c hc => ?_
  have hlt := lt_of_mem_children hc
  omega

/-- The trees below a node depend on the children of the nodes from it on and on their contents. -/
theorem forest_congr {c : Nat} (hc : c < f.size)
    (hsame : ∀ x, c ≤ x → x < f.size →
      f'.children x = f.children x ∧ ∀ q ∈ f.children x, f'.content? q = f.content? q) :
    f'.forest c = f.forest c := by
  induction hdepth : f.size - c using Nat.strongRecOn generalizing c with
  | ind depth ih =>
    obtain ⟨hchildren, hcontent⟩ := hsame c (Nat.le_refl _) hc
    rw [forest_eq, forest_eq f, hchildren]
    refine List.filterMap_congr ?_
    intro q hq
    obtain ⟨hlt, hsize⟩ := lt_of_mem_children hq
    have hbelow : f'.forest q = f.forest q :=
      ih (f.size - q) (by omega) hsize (fun x hx => hsame x (by omega)) rfl
    rw [hcontent q hq, hbelow]

/-! ## One more node -/

/-- Under a node of the fragment a cell is added. -/
theorem append_eq {parent : Nat} (content : Content) (hparent : parent < f.size) :
    f.append parent content =
      ({ cells := extend f.cells parent content, linked := f.linked.extend hparent content },
        f.size) :=
  dif_pos hparent

/-- One node is appended. -/
theorem size_append {parent : Nat} (content : Content) (hparent : parent < f.size) :
    (f.append parent content).1.size = f.size + 1 := by
  rw [append_eq content hparent]
  exact size_extend parent content

/-- The new node is under the parent, and the others stay where they are. -/
theorem parent?_append {parent : Nat} (content : Content) (hparent : parent < f.size) (id : Nat) :
    (f.append parent content).1.parent? id =
      if id = f.size then some parent else f.parent? id := by
  rw [append_eq content hparent]
  exact parentIn?_extend hparent content id

/-- The new node has the content, and the others keep theirs. -/
theorem content?_append {parent : Nat} (content : Content) (hparent : parent < f.size) (id : Nat) :
    (f.append parent content).1.content? id =
      if id = f.size then some content else f.content? id := by
  rw [append_eq content hparent]
  exact contentIn?_extend hparent content id

/-- The new node becomes the last child of its parent. -/
theorem children_append {parent : Nat} (content : Content) (hparent : parent < f.size) (id : Nat) :
    (f.append parent content).1.children id =
      f.children id ++ if id = parent then [f.size] else [] := by
  rw [append_eq content hparent]
  exact childrenIn_extend hparent content id

/-! ## Growth under a node -/

/-- The fragment `f'` has grown from `f` under `p`: the other nodes of `f` keep their children, `p`
gets new nodes only, and no contents change but those of children of `p`. -/
structure Grown (f f' : Fragment) (p : Nat) : Prop where
  size_le : f.size ≤ f'.size
  children_other : ∀ q, q < f.size → q ≠ p → f'.children q = f.children q
  children_self : ∀ c ∈ f'.children p, c ∈ f.children p ∨ f.size ≤ c
  content_other : ∀ q, q < f.size → q ∉ f.children p → f'.content? q = f.content? q

namespace Grown

variable {f'' : Fragment} {p : Nat}

/-- A fragment has grown under each of its nodes, if only by nothing. -/
theorem refl (f : Fragment) (p : Nat) : f.Grown f p :=
  ⟨Nat.le_refl _, fun _ _ _ => rfl, fun _ hc => Or.inl hc, fun _ _ _ => rfl⟩

/-- What grows under a node twice has grown under it. -/
theorem trans (h : f.Grown f' p) (h' : f'.Grown f'' p) : f.Grown f'' p where
  size_le := Nat.le_trans h.size_le h'.size_le
  children_other := by
    intro q hq hne
    rw [h'.children_other q (Nat.lt_of_lt_of_le hq h.size_le) hne, h.children_other q hq hne]
  children_self := by
    intro c hc
    rcases h'.children_self c hc with hc | hnew
    · exact h.children_self c hc
    · exact Or.inr (Nat.le_trans h.size_le hnew)
  content_other := by
    intro q hq hmem
    have hmem' : q ∉ f'.children p := by
      intro hc
      rcases h.children_self q hc with hc | hnew
      · exact hmem hc
      · omega
    rw [h'.content_other q (Nat.lt_of_lt_of_le hq h.size_le) hmem', h.content_other q hq hmem]

/-- What grows under a new node has grown under every node above it. -/
theorem inner (h : f.Grown f' p) {id : Nat} (h' : f'.Grown f'' id) (hp : p < f.size)
    (hid : f.size ≤ id) : f.Grown f'' p where
  size_le := Nat.le_trans h.size_le h'.size_le
  children_other := by
    intro q hq hne
    rw [h'.children_other q (Nat.lt_of_lt_of_le hq h.size_le) (by omega),
      h.children_other q hq hne]
  children_self := by
    intro c hc
    rw [h'.children_other p (Nat.lt_of_lt_of_le hp h.size_le) (by omega)] at hc
    exact h.children_self c hc
  content_other := by
    intro q hq hmem
    have hmem' : q ∉ f'.children id := by
      intro hc
      have hlt := (lt_of_mem_children hc).1
      omega
    rw [h'.content_other q (Nat.lt_of_lt_of_le hq h.size_le) hmem', h.content_other q hq hmem]

/-- The trees below a node after `p` do not change. -/
theorem forest_eq_of_lt (h : f.Grown f' p) {c : Nat} (hpc : p < c) (hc : c < f.size) :
    f'.forest c = f.forest c := by
  refine forest_congr hc ?_
  intro x hcx hx
  refine ⟨h.children_other x hx (by omega), ?_⟩
  intro q hq
  refine h.content_other q (lt_of_mem_children hq).2 ?_
  intro hqp
  have hparent := mem_children_iff.mp hq
  rw [mem_children_iff.mp hqp] at hparent
  have heq := Option.some.inj hparent
  omega

end Grown

/-- To append a node under another is growth under that one. -/
theorem grown_append {parent : Nat} (content : Content) (hparent : parent < f.size) :
    f.Grown (f.append parent content).1 parent where
  size_le := by
    rw [size_append content hparent]
    omega
  children_other := by
    intro q _ hne
    rw [children_append content hparent, if_neg hne, List.append_nil]
  children_self := by
    intro c hc
    rw [children_append content hparent, if_pos rfl, List.mem_append, List.mem_singleton] at hc
    exact hc.imp_right fun heq => Nat.le_of_eq heq.symm
  content_other := by
    intro q hq _
    rw [content?_append content hparent, if_neg (by omega)]

/-- A new node, and whatever has grown under it, is one more tree below its parent. -/
theorem forest_append {parent : Nat} (content : Content) (hparent : parent < f.size)
    (h : (f.append parent content).1.Grown f' f.size) :
    f'.forest parent = f.forest parent ++ [content.toNode (f'.forest f.size)] := by
  have hgrown := (grown_append content hparent).inner h hparent (Nat.le_refl _)
  have hsize := size_append content hparent
  have hchildren : f'.children parent = f.children parent ++ [f.size] := by
    rw [h.children_other parent (by omega) (by omega), children_append content hparent, if_pos rfl]
  have hcontent : ∀ q, q ≤ f.size →
      f'.content? q = (f.append parent content).1.content? q := by
    intro q hq
    refine h.content_other q (by omega) ?_
    intro hmem
    have hlt := (lt_of_mem_children hmem).1
    omega
  rw [forest_eq, forest_eq f, hchildren, List.filterMap_append]
  congr 1
  · refine List.filterMap_congr ?_
    intro c hc
    obtain ⟨hlt, hc⟩ := lt_of_mem_children hc
    rw [hgrown.forest_eq_of_lt hlt hc, hcontent c (by omega), content?_append content hparent,
      if_neg (by omega)]
  · rw [List.filterMap_cons, hcontent f.size (Nat.le_refl _), content?_append content hparent,
      if_pos rfl]
    rfl

theorem size_withContent (id : Nat) (content : Content) :
    (f.withContent id content).size = f.size :=
  size_setContent id content

/-- To set the content of a node leaves the contents of the others. -/
theorem content?_withContent (id : Nat) (content : Content) (x : Nat) :
    (f.withContent id content).content? x =
      if x = id then (f.content? x).map fun _ => content else f.content? x :=
  contentIn?_setContent id content x

theorem parent?_withContent (id : Nat) (content : Content) (x : Nat) :
    (f.withContent id content).parent? x = f.parent? x :=
  parentIn?_setContent id content x

theorem children_withContent (id : Nat) (content : Content) (x : Nat) :
    (f.withContent id content).children x = f.children x :=
  childrenIn_setContent id content x

/-- To set the content of a child is growth under its parent. -/
theorem grown_withContent {parent id : Nat} (content : Content) (hid : id ∈ f.children parent) :
    f.Grown (f.withContent id content) parent where
  size_le := Nat.le_of_eq (size_withContent id content).symm
  children_other := fun q _ _ => children_withContent id content q
  children_self := by
    intro c hc
    rw [children_withContent] at hc
    exact Or.inl hc
  content_other := by
    intro q _ hq
    have hne : q ≠ id := by
      rintro rfl
      exact hq hid
    rw [content?_withContent, if_neg hne]

/-! ## Texts -/

/-- The last tree below a node is that of its last child. -/
theorem forest_eq_append {parent last : Nat} (hlast : (f.children parent).getLast? = some last) :
    ∃ front content, f.children parent = front ++ [last] ∧ f.content? last = some content ∧
      f.forest parent = (front.filterMap fun c =>
        (f.content? c).map fun content => content.toNode (f.forest c)) ++
          [content.toNode (f.forest last)] := by
  obtain ⟨front, hchildren⟩ := List.getLast?_eq_some_iff.mp hlast
  have hmem : last ∈ f.children parent := by simp [hchildren]
  obtain ⟨content, hcontent⟩ :=
    Option.ne_none_iff_exists'.mp (content?_ne_none_of_mem_children hmem)
  refine ⟨front, content, hchildren, hcontent, ?_⟩
  rw [forest_eq, hchildren, List.filterMap_append]
  simp [hcontent]

/-- The last text below a node with another content. -/
theorem forest_withContent {parent last : Nat} {before : String} (data : String)
    (hlast : (f.children parent).getLast? = some last)
    (hcontent : f.content? last = some (.text before)) :
    (f.withContent last (.text data)).forest parent =
      (f.forest parent).dropLast ++ [.text data] := by
  obtain ⟨front, content, hchildren, hcontent', hforest⟩ := forest_eq_append hlast
  have hmem : last ∈ f.children parent := by simp [hchildren]
  have hgrown := grown_withContent (.text data) hmem
  have hnodup := f.nodup_children parent
  rw [hchildren] at hnodup
  rw [hforest, List.dropLast_concat, forest_eq, children_withContent, hchildren,
    List.filterMap_append]
  congr 1
  · refine List.filterMap_congr ?_
    intro c hc
    have hne : c ≠ last := by
      rintro rfl
      exact (List.nodup_append.mp hnodup).2.2 c hc c (by simp) rfl
    obtain ⟨hlt, hsize⟩ := lt_of_mem_children (show c ∈ f.children parent by simp [hchildren, hc])
    rw [hgrown.forest_eq_of_lt hlt hsize, content?_withContent, if_neg hne]
  · rw [List.filterMap_cons, content?_withContent, if_pos rfl, hcontent]
    rfl

/-- A text that is appended behind a text is joined to it. -/
theorem appendText_of_text {parent last : Nat} {before : String}
    (hlast : (f.children parent).getLast? = some last)
    (hbefore : f.content? last = some (.text before)) (data : String) :
    (f.appendText parent data).1 = f.withContent last (.text (before ++ data)) := by
  rw [appendText, hlast]
  simp only [hbefore]

/-- A text that is appended behind anything but a text is a new node. -/
theorem appendText_of_no_text {parent : Nat}
    (hnone : ∀ last before, (f.children parent).getLast? = some last →
      f.content? last ≠ some (.text before)) (data : String) :
    (f.appendText parent data).1 = (f.append parent (.text data)).1 := by
  unfold appendText
  split
  · next last hlast =>
    split
    · next before hbefore => exact absurd hbefore (hnone last before hlast)
    · rfl
  · rfl

/-- A text put under a node joins a text that is the last tree there. -/
theorem appendText_spec {parent : Nat} (hparent : parent < f.size) (data : String) :
    f.Grown (f.appendText parent data).1 parent ∧
      (f.appendText parent data).1.forest parent =
        Node.join (f.forest parent) (.text data) := by
  have happend : (f.append parent (.text data)).1.forest parent =
      f.forest parent ++ [.text data] :=
    forest_append (.text data) hparent (Grown.refl _ _)
  unfold appendText
  split
  · next last hlast =>
    obtain ⟨front, content, hchildren, hcontent, hforest⟩ := forest_eq_append hlast
    have hmem : last ∈ f.children parent := by simp [hchildren]
    split
    · next before hbefore =>
      refine ⟨grown_withContent (.text (before ++ data)) hmem, ?_⟩
      have hchanged := forest_withContent (before ++ data) hlast hbefore
      rw [hbefore] at hcontent
      cases hcontent
      rw [hforest, List.dropLast_concat] at hchanged
      rw [hforest]
      exact hchanged.trans (Node.join_concat_text _ before data).symm
    · next hother =>
      refine ⟨grown_append _ hparent, ?_⟩
      have hnottext : ∀ before, content.toNode (f.forest last) ≠ .text before := by
        intro before htext
        cases content with
        | text data => exact hother data hcontent
        | tag name attrs => cases htext
        | comment data => cases htext
        | directive data => cases htext
      rw [happend, hforest, Node.join_concat hnottext]
  · next hnone =>
    have hempty : f.forest parent = [] := by
      rw [forest_eq, List.getLast?_eq_none_iff.mp hnone]
      rfl
    refine ⟨grown_append _ hparent, ?_⟩
    rw [happend, hempty]
    rfl

/-! ## Trees -/

/-- Nothing is below a new node yet. -/
theorem forest_append_self {parent : Nat} (content : Content) (hparent : parent < f.size) :
    (f.append parent content).1.forest f.size = [] := by
  have hnone := children_of_size_le (Nat.le_refl f.size)
  rw [forest_eq, children_append content hparent, hnone, if_neg (by omega)]
  rfl

/-- What lies below an element is grafted under the new node. -/
theorem graft_element {parent : Nat} (hparent : parent < f.size) (tag : String)
    (attrs : List Attribute) (children : List Node) :
    graft f parent (.element tag attrs children) =
      graftAll (f.append parent (.tag tag attrs)).1 f.size children := by
  rw [graft, appendElement, append_eq _ hparent]

mutual

/-- A tree put under a node is one more tree there. -/
theorem graft_spec {f : Fragment} {parent : Nat} (hparent : parent < f.size) :
    ∀ n : Node, f.Grown (graft f parent n) parent ∧
      (graft f parent n).forest parent = Node.join (f.forest parent) n.joined
  | .element tag attrs children => by
    have hsize := size_append (.tag tag attrs) hparent
    have hnew : f.size < (f.append parent (.tag tag attrs)).1.size := by omega
    obtain ⟨hgrown, hforest⟩ := graftAll_spec hnew children
    rw [graft_element hparent, forest_append _ hparent hgrown, hforest,
      forest_append_self _ hparent]
    exact ⟨(grown_append _ hparent).inner hgrown hparent (Nat.le_refl _), rfl⟩
  | .text data => appendText_spec hparent data
  | .comment data =>
    ⟨grown_append _ hparent, forest_append (.comment data) hparent (Grown.refl _ _)⟩
  | .directive data =>
    ⟨grown_append _ hparent, forest_append (.directive data) hparent (Grown.refl _ _)⟩

/-- Trees put under a node follow the trees there. -/
theorem graftAll_spec {f : Fragment} {parent : Nat} (hparent : parent < f.size) :
    ∀ ns : List Node, f.Grown (graftAll f parent ns) parent ∧
      (graftAll f parent ns).forest parent = Node.joinedUnder (f.forest parent) ns
  | [] => ⟨Grown.refl _ _, rfl⟩
  | n :: rest => by
    obtain ⟨hgrown, hforest⟩ := graft_spec hparent n
    obtain ⟨hgrown', hforest'⟩ :=
      graftAll_spec (Nat.lt_of_lt_of_le hparent hgrown.size_le) rest
    exact ⟨hgrown.trans hgrown', by rw [graftAll, Node.joinedUnder, hforest', hforest]⟩

end

/-- The trees of the fragment of trees are these trees with adjacent texts made one. -/
theorem forest_ofNodes (ns : List Node) :
    (ofNodes ns).forest root = Node.joinedUnder [] ns := by
  have hroot : root < ({} : Fragment).size := by decide
  have hempty : ({} : Fragment).forest root = [] := by
    rw [forest_eq]
    rfl
  rw [ofNodes, (graftAll_spec hroot ns).2, hempty]

end Fragment

/-! ## Markup -/

namespace Markup

theorem escapeText_append (a b : String) : escapeText (a ++ b) = escapeText a ++ escapeText b := by
  simp [escapeText]

end Markup

namespace Node

open Markup

/-- Nodes are written one after the other. -/
theorem markupAll_append (raw : Bool) (first second : List Node) :
    markupAll raw (first ++ second) = markupAll raw first ++ markupAll raw second := by
  induction first with
  | nil => simp [markupAll]
  | cons n rest ih => rw [List.cons_append, markupAll, markupAll, ih, String.append_assoc]

theorem markupAll_singleton (raw : Bool) (n : Node) : markupAll raw [n] = markup raw n := by
  simp [markupAll]

/-- Two texts are written like the one that they make. -/
theorem markup_text_append (raw : Bool) (last data : String) :
    markup raw (.text (last ++ data)) = markup raw (.text last) ++ markup raw (.text data) := by
  cases raw with
  | true => rfl
  | false => exact escapeText_append last data

/-- A text that joins another adds its own markup. -/
theorem markupAll_join (raw : Bool) (before : List Node) (n : Node) :
    markupAll raw (join before n) = markupAll raw before ++ markup raw n := by
  have hnew : markupAll raw (before ++ [n]) = markupAll raw before ++ markup raw n := by
    rw [markupAll_append, markupAll_singleton]
  cases n with
  | element tag attrs children => exact hnew
  | comment data => exact hnew
  | directive data => exact hnew
  | text data =>
    rcases List.eq_nil_or_concat before with rfl | ⟨front, m, rfl⟩
    · exact hnew
    · rw [List.concat_eq_append] at hnew ⊢
      by_cases htext : ∃ last, m = .text last
      · obtain ⟨last, rfl⟩ := htext
        rw [join_concat_text, markupAll_append, markupAll_append, markupAll_singleton,
          markupAll_singleton, markup_text_append, String.append_assoc]
      · rw [join_concat (fun last hm => htext ⟨last, hm⟩)]
        exact hnew

mutual

/-- Making adjacent texts one does not show. -/
theorem markup_joined (raw : Bool) : ∀ n : Node, markup raw n.joined = markup raw n
  | .element tag attrs children => by
    have hchildren := markupAll_joinedUnder (isRawText tag) [] children
    rw [joined, markup, markup, hchildren, markupAll, String.empty_append]
  | .text _ => rfl
  | .comment _ => rfl
  | .directive _ => rfl

/-- To make adjacent texts one changes nothing of what is written. -/
theorem markupAll_joinedUnder (raw : Bool) (before : List Node) :
    ∀ ns : List Node, markupAll raw (joinedUnder before ns) =
      markupAll raw before ++ markupAll raw ns
  | [] => by simp [joinedUnder, markupAll]
  | n :: rest => by
    rw [joinedUnder, markupAll_joinedUnder raw _ rest, markupAll_join, markup_joined raw n,
      markupAll, String.append_assoc]

end

end Node

/-- The markup of the fragment of trees is that of the trees. -/
theorem Fragment.markup_ofNodes (ns : List Node) :
    (Fragment.ofNodes ns).markup = Node.markupAll false ns := by
  have hroot : Markup.isRawText ((Fragment.ofNodes ns).tagName Fragment.root) = false := by
    rw [Fragment.tagName, Fragment.content?_root]
    rfl
  rw [Fragment.markup, Fragment.innerMarkup, hroot, Fragment.forest_ofNodes,
    Node.markupAll_joinedUnder, Node.markupAll, String.empty_append]

end LiveMarkup
