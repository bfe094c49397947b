import LiveMarkup.Markup.Serialize

/-!
# Fragments

A fragment is a tree that grows by appending nodes, each under a node that is already there.  Nodes
are numbered in the order in which they are appended; the root is number zero.  Each node has links
up and down: the number of its parent, and those of its children.  Appending sets both links at
once, so they always agree.

A text appended next to a text joins it.

Main definitions:

- `Fragment.Content`, `Fragment.Cell`, `Fragment`: the contents of nodes, the nodes, and the tree.
- `Fragment.Linked`: the links of nodes agree.
- `Fragment.children`, `Fragment.parent?`, `Fragment.depth`: its shape.
- `Fragment.preorder`, `Fragment.descendants`: a subtree in document order, by recursion and by a
  walk that remembers what lies ahead.
- `Fragment.append`, `Fragment.appendText`: growth.
- `Fragment.forest`: the nodes below a node as trees.
- `Fragment.ofNodes`: the fragment of trees.
- `Fragment.outerMarkup`, `Fragment.innerMarkup`: markup.

Main results:

- `Fragment.Linked.extend`, `Fragment.Linked.setContent`: appending keeps the links in agreement.
- `Fragment.mem_children_iff`, `Fragment.parent_lt`: the children of a node are the nodes that have
  it as their parent, and come after it.
-/

namespace LiveMarkup

/-- The content of a node that was appended to a fragment. -/
inductive Fragment.Content where
  | tag (name : String) (attrs : List Attribute)
  | text (data : String)
  | comment (data : String)
  | directive (data : String)
  deriving DecidableEq, Repr

/-- A node with its links; the root has no content and no parent. -/
structure Fragment.Cell where
  content? : Option Fragment.Content := none
  parent? : Option Nat := none
  children : Array Nat := #[]
  deriving DecidableEq, Repr

namespace Fragment

namespace Content

/-- What a node is. -/
def kind : Content → NodeKind
  | .tag _ _ => .tag
  | .text _ => .text
  | .comment _ => .comment
  | .directive _ => .directive

/-- The tag of an element; other nodes have none. -/
def name : Content → String
  | .tag name _ => name
  | _ => ""

/-- The attributes of an element; other nodes have none. -/
def attrs : Content → List Attribute
  | .tag _ attrs => attrs
  | _ => []

/-- What stands in a text, a comment or a directive. -/
def data : Content → String
  | .tag _ _ => ""
  | .text data => data
  | .comment data => data
  | .directive data => data

/-- The node of a content, given what lies below it; only elements keep it. -/
def toNode (children : List Node) : Content → Node
  | .tag name attrs => .element name attrs children
  | .text data => .text data
  | .comment data => .comment data
  | .directive data => .directive data

end Content

/-! ## Links -/

/-- The content of one of several nodes; the root has none. -/
def contentIn? (cells : Array Cell) (id : Nat) : Option Content :=
  cells[id]?.bind fun cell => cell.content?

/-- The parent of one of several nodes; the root has none. -/
def parentIn? (cells : Array Cell) (id : Nat) : Option Nat :=
  cells[id]?.bind fun cell => cell.parent?

/-- The children of one of several nodes, in the order in which they were appended. -/
def childrenIn (cells : Array Cell) (id : Nat) : List Nat :=
  (cells[id]?.map fun cell => cell.children.toList).getD []

/-- The links of nodes agree: node zero is the root, every other node has a content and comes after
its parent, and the children of a node are the nodes that have it as their parent, each once. -/
structure Linked (cells : Array Cell) : Prop where
  size_pos : 0 < cells.size
  content_root : contentIn? cells 0 = none
  parent_root : parentIn? cells 0 = none
  content {id : Nat} (hpos : 0 < id) (hid : id < cells.size) : contentIn? cells id ≠ none
  parent {id : Nat} (hpos : 0 < id) (hid : id < cells.size) :
    ∃ p < id, parentIn? cells id = some p
  children (id c : Nat) : c ∈ childrenIn cells id ↔ parentIn? cells c = some id
  nodup (id : Nat) : (childrenIn cells id).Nodup

/-- The nodes with a new one after the children of a node. -/
def extend (cells : Array Cell) (parent : Nat) (content : Content) : Array Cell :=
  (cells.push { content? := some content, parent? := some parent }).modify parent fun cell =>
    { cell with children := cell.children.push cells.size }

/-- The nodes with another content for one of them; the root stays without. -/
def setContent (cells : Array Cell) (id : Nat) (content : Content) : Array Cell :=
  cells.modify id fun cell => { cell with content? := cell.content?.map fun _ => content }

section

variable {cells : Array Cell}

/-- The cells after one is added: the new one, and the parent with one more child. -/
theorem getElem?_extend {parent : Nat} (hparent : parent < cells.size) (content : Content)
    (id : Nat) :
    (extend cells parent content)[id]? =
      if id = cells.size then some { content? := some content, parent? := some parent }
      else cells[id]?.map fun cell =>
        { cell with
          children := if id = parent then cell.children.push cells.size else cell.children } := by
  simp only [extend, Array.getElem?_modify, Array.getElem?_push]
  by_cases hnew : id = cells.size
  · simp [hnew, Nat.ne_of_lt hparent]
  · by_cases hid : id = parent
    · simp [hid, Nat.ne_of_lt hparent]
    · simp [hnew, hid, Ne.symm hid]

/-- One cell is added. -/
theorem size_extend (parent : Nat) (content : Content) :
    (extend cells parent content).size = cells.size + 1 := by
  rw [extend, Array.size_modify, Array.size_push]

/-- The new cell has the content, and the others keep theirs. -/
theorem contentIn?_extend {parent : Nat} (hparent : parent < cells.size) (content : Content)
    (id : Nat) :
    contentIn? (extend cells parent content) id =
      if id = cells.size then some content else contentIn? cells id := by
  rw [contentIn?, getElem?_extend hparent]
  split
  · rfl
  · rw [Option.bind_map]
    rfl

/-- The new cell is under the parent, and the others stay where they are. -/
theorem parentIn?_extend {parent : Nat} (hparent : parent < cells.size) (content : Content)
    (id : Nat) :
    parentIn? (extend cells parent content) id =
      if id = cells.size then some parent else parentIn? cells id := by
  rw [parentIn?, getElem?_extend hparent]
  split
  · rfl
  · rw [Option.bind_map]
    rfl

/-- The new node becomes the last child of its parent. -/
theorem childrenIn_extend {parent : Nat} (hparent : parent < cells.size) (content : Content)
    (id : Nat) :
    childrenIn (extend cells parent content) id =
      childrenIn cells id ++ if id = parent then [cells.size] else [] := by
  rw [childrenIn, getElem?_extend hparent, childrenIn]
  by_cases hnew : id = cells.size
  · simp [hnew, Nat.ne_of_gt hparent]
  · rw [if_neg hnew, Option.map_map]
    by_cases hid : id = parent
    · simp [hid, hparent]
    · cases cells[id]? <;> simp [hid]

theorem size_setContent (id : Nat) (content : Content) :
    (setContent cells id content).size = cells.size :=
  Array.size_modify

/-- To set the content of a cell leaves the contents of the others. -/
theorem contentIn?_setContent (id : Nat) (content : Content) (x : Nat) :
    contentIn? (setContent cells id content) x =
      if x = id then (contentIn? cells x).map fun _ => content else contentIn? cells x := by
  rw [contentIn?, setContent, Array.getElem?_modify, contentIn?]
  by_cases hx : x = id
  · rw [if_pos hx, if_pos hx.symm, Option.bind_map, Option.map_bind]
    rfl
  · rw [if_neg hx, if_neg (Ne.symm hx)]

/-- To set the content of a cell leaves all parents. -/
theorem parentIn?_setContent (id : Nat) (content : Content) (x : Nat) :
    parentIn? (setContent cells id content) x = parentIn? cells x := by
  rw [parentIn?, setContent, Array.getElem?_modify]
  split
  · rw [Option.bind_map]
    rfl
  · rfl

/-- To set the content of a cell leaves all children. -/
theorem childrenIn_setContent (id : Nat) (content : Content) (x : Nat) :
    childrenIn (setContent cells id content) x = childrenIn cells x := by
  rw [childrenIn, setContent, Array.getElem?_modify]
  split
  · rw [Option.map_map]
    rfl
  · rfl

namespace Linked

/-- The links of a root alone. -/
theorem single : Linked #[{}] where
  size_pos := Nat.one_pos
  content_root := rfl
  parent_root := rfl
  content hpos hid := absurd hid (Nat.not_lt.mpr hpos)
  parent hpos hid := absurd hid (Nat.not_lt.mpr hpos)
  children id c := by cases id <;> cases c <;> simp [childrenIn, parentIn?]
  nodup id := by cases id <;> simp [childrenIn]

/-- Only cells have a parent. -/
theorem lt_size (_h : Linked cells) {id p : Nat} (hp : parentIn? cells id = some p) :
    id < cells.size := by
  obtain ⟨cell, hcell, -⟩ := Option.bind_eq_some_iff.mp hp
  exact (Array.getElem?_eq_some_iff.mp hcell).1

/-- Every node comes after its parent. -/
theorem parent_lt (h : Linked cells) {id p : Nat} (hp : parentIn? cells id = some p) : p < id := by
  rcases Nat.eq_zero_or_pos id with rfl | hpos
  · cases hp.symm.trans h.parent_root
  · obtain ⟨q, hq, hparent⟩ := h.parent hpos (h.lt_size hp)
    cases hp.symm.trans hparent
    exact hq

/-- A new node after the children of a node keeps the links in agreement. -/
theorem extend (h : Linked cells) {parent : Nat} (hparent : parent < cells.size)
    (content : Content) : Linked (extend cells parent content) where
  size_pos := by
    rw [size_extend]
    exact Nat.succ_pos _
  content_root := by
    rw [contentIn?_extend hparent, if_neg (Nat.ne_of_lt h.size_pos), h.content_root]
  parent_root := by
    rw [parentIn?_extend hparent, if_neg (Nat.ne_of_lt h.size_pos), h.parent_root]
  content {id} hpos hid := by
    rw [contentIn?_extend hparent]
    split
    · exact Option.some_ne_none content
    · rw [size_extend] at hid
      exact h.content hpos (by omega)
  parent {id} hpos hid := by
    rw [parentIn?_extend hparent]
    split
    · exact ⟨parent, by omega, rfl⟩
    · rw [size_extend] at hid
      exact h.parent hpos (by omega)
  children id c := by
    rw [childrenIn_extend hparent, parentIn?_extend hparent, List.mem_append, h.children id c]
    by_cases hc : c = cells.size
    · have hnone : parentIn? cells c ≠ some id := fun hp => Nat.ne_of_lt (h.lt_size hp) hc
      rw [if_pos hc, or_iff_right hnone, Option.some.injEq]
      by_cases hid : id = parent
      · simp [hid, hc]
      · simp [hid, Ne.symm hid]
    · rw [if_neg hc]
      by_cases hid : id = parent <;> simp [hid, hc]
  nodup id := by
    rw [childrenIn_extend hparent]
    split
    · refine List.nodup_append.mpr ⟨h.nodup id, by simp, ?_⟩
      intro c hc new hnew
      rw [List.mem_singleton.mp hnew]
      exact Nat.ne_of_lt (h.lt_size ((h.children id c).mp hc))
    · rw [List.append_nil]
      exact h.nodup id

/-- Another content for a node keeps the links in agreement. -/
theorem setContent (h : Linked cells) (id : Nat) (content : Content) :
    Linked (setContent cells id content) where
  size_pos := by
    rw [size_setContent]
    exact h.size_pos
  content_root := by
    rw [contentIn?_setContent, h.content_root]
    exact ite_self _
  parent_root := by rw [parentIn?_setContent, h.parent_root]
  content {x} hpos hx := by
    rw [size_setContent] at hx
    rw [contentIn?_setContent]
    split
    · simpa using h.content hpos hx
    · exact h.content hpos hx
  parent {x} hpos hx := by
    rw [size_setContent] at hx
    rw [parentIn?_setContent]
    exact h.parent hpos hx
  children x c := by
    rw [childrenIn_setContent, parentIn?_setContent]
    exact h.children x c
  nodup x := by
    rw [childrenIn_setContent]
    exact h.nodup x

end Linked
end

end Fragment

/-- A tree that grows by appending; the links of its nodes agree. -/
structure Fragment where
  cells : Array Fragment.Cell
  linked : Fragment.Linked cells
  deriving DecidableEq, Repr

namespace Fragment

/-- The fragment of a root alone. -/
instance : EmptyCollection Fragment :=
  ⟨{ cells := #[{}], linked := Linked.single }⟩

/-! ## Shape -/

/-- The root. -/
def root : Nat := 0

/-- The number of nodes, the root included. -/
def size (f : Fragment) : Nat :=
  f.cells.size

/-- The content of a node other than the root. -/
def content? (f : Fragment) (id : Nat) : Option Content :=
  contentIn? f.cells id

/-- The parent of a node. -/
def parent? (f : Fragment) (id : Nat) : Option Nat :=
  parentIn? f.cells id

/-- The children of a node, earlier ones first. -/
def children (f : Fragment) (id : Nat) : List Nat :=
  childrenIn f.cells id

/-- Whether nothing was appended under the root. -/
def isEmpty (f : Fragment) : Bool :=
  (f.children root).isEmpty

/-- The root has no content. -/
@[simp]
theorem content?_root (f : Fragment) : f.content? root = none :=
  f.linked.content_root

/-- The root has no parent. -/
@[simp]
theorem parent?_root (f : Fragment) : f.parent? root = none :=
  f.linked.parent_root

theorem size_pos (f : Fragment) : 0 < f.size :=
  f.linked.size_pos

/-- The children of a node are the nodes that have it as their parent. -/
theorem mem_children_iff {f : Fragment} {id c : Nat} :
    c ∈ f.children id ↔ f.parent? c = some id :=
  f.linked.children id c

/-- No node is twice among the children of one. -/
theorem nodup_children (f : Fragment) (id : Nat) : (f.children id).Nodup :=
  f.linked.nodup id

/-- A node has a later number than its parent. -/
theorem parent_lt {f : Fragment} {id parent : Nat} (h : f.parent? id = some parent) :
    parent < id :=
  f.linked.parent_lt h

/-- Only nodes of the fragment have a parent. -/
theorem lt_size_of_parent? {f : Fragment} {id parent : Nat} (h : f.parent? id = some parent) :
    id < f.size :=
  f.linked.lt_size h

/-- Children come after their parent. -/
theorem lt_of_mem_children {f : Fragment} {id c : Nat} (h : c ∈ f.children id) :
    id < c ∧ c < f.size :=
  have hparent := mem_children_iff.mp h
  ⟨parent_lt hparent, lt_size_of_parent? hparent⟩

/-- A node and everything below it: a node before its children, earlier children first. -/
def preorder (f : Fragment) (id : Nat) : List Nat :=
  id :: (f.children id).attach.flatMap fun c => f.preorder c.1
termination_by f.size - id
decreasing_by
  have := lt_of_mem_children c.2
  omega

/-- A node comes before the walks of its children. -/
theorem preorder_eq (f : Fragment) (id : Nat) :
    f.preorder id = id :: (f.children id).flatMap f.preorder := by
  rw [preorder]
  simp

/-- The nodes that a walk visits which has some nodes ahead of it: it visits the first of them and
puts the children of that one ahead of the others. -/
def walk (f : Fragment) : List Nat → List Nat
  | [] => []
  | id :: ahead => id :: f.walk (f.children id ++ ahead)
termination_by ahead => (ahead.flatMap f.preorder).length
decreasing_by
  rw [List.flatMap_cons, preorder_eq, List.flatMap_append]
  simp

/-- The nodes that a walk visits from a node on. -/
def descendants (f : Fragment) (id : Nat) : List Nat :=
  f.walk [id]

/-- The number of nodes above a node. -/
def depth (f : Fragment) (id : Nat) : Nat :=
  match hparent : f.parent? id with
  | none => 0
  | some p => f.depth p + 1
termination_by id
decreasing_by exact parent_lt hparent

/-- The nodes below a node as trees.  Only elements keep what lies below them. -/
def forest (f : Fragment) (id : Nat) : List Node :=
  (f.children id).attach.filterMap fun c =>
    (f.content? c.1).map fun content => content.toNode (f.forest c.1)
termination_by f.size - id
decreasing_by
  have := lt_of_mem_children c.2
  omega

/-- A node other than the root as a tree. -/
def node? (f : Fragment) (id : Nat) : Option Node :=
  (f.content? id).map fun content => content.toNode (f.forest id)

/-! ## Growth -/

/-- Append a node under another, and its number.  Under a node that is not there nothing is
appended. -/
def append (f : Fragment) (parent : Nat) (content : Content) : Fragment × Nat :=
  if h : parent < f.size then
    ({ cells := extend f.cells parent content, linked := f.linked.extend h content }, f.size)
  else (f, parent)

/-- Another content for a node other than the root. -/
def withContent (f : Fragment) (id : Nat) (content : Content) : Fragment :=
  { cells := setContent f.cells id content, linked := f.linked.setContent id content }

/-- Append an element. -/
def appendElement (f : Fragment) (parent : Nat) (name : String) (attrs : List Attribute) :
    Fragment × Nat :=
  f.append parent (.tag name attrs)

/-- Append a text: to the last child if that is a text, else as a node of its own. -/
def appendText (f : Fragment) (parent : Nat) (data : String) : Fragment × Nat :=
  match (f.children parent).getLast? with
  | some last =>
    match f.content? last with
    | some (.text before) => (f.withContent last (.text (before ++ data)), last)
    | _ => f.append parent (.text data)
  | none => f.append parent (.text data)

/-- Append a comment. -/
def appendComment (f : Fragment) (parent : Nat) (data : String) : Fragment × Nat :=
  f.append parent (.comment data)

/-- Append a directive. -/
def appendDirective (f : Fragment) (parent : Nat) (data : String) : Fragment × Nat :=
  f.append parent (.directive data)

mutual

/-- Append a tree under a node, in document order. -/
def graft (f : Fragment) (parent : Nat) : Node → Fragment
  | .element tag attrs children =>
    let (f, id) := f.appendElement parent tag attrs
    graftAll f id children
  | .text data => (f.appendText parent data).1
  | .comment data => (f.appendComment parent data).1
  | .directive data => (f.appendDirective parent data).1

/-- Append trees under a node, in document order. -/
def graftAll (f : Fragment) (parent : Nat) : List Node → Fragment
  | [] => f
  | n :: rest => graftAll (graft f parent n) parent rest

end

/-- The fragment of trees. -/
def ofNodes (nodes : List Node) : Fragment :=
  graftAll {} root nodes

/-! ## Markup -/

/-- The tag of a node, empty for what is not an element. -/
def tagName (f : Fragment) (id : Nat) : String :=
  ((f.content? id).map Content.name).getD ""

/-- The markup of the nodes below a node. -/
def innerMarkup (f : Fragment) (id : Nat) : String :=
  Node.markupAll (Markup.isRawText (f.tagName id)) (f.forest id)

/-- The markup of a node with its own tags. -/
def outerMarkup (f : Fragment) (id : Nat) : String :=
  if id = root then f.innerMarkup root
  else
    let raw := ((f.parent? id).map fun p => Markup.isRawText (f.tagName p)).getD false
    ((f.node? id).map (Node.markup raw)).getD ""

/-- The markup of a whole fragment. -/
def markup (f : Fragment) : String :=
  f.innerMarkup root

end Fragment
end LiveMarkup
