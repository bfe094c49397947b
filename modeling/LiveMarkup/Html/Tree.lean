import LiveMarkup.Html.ParsedTree

/-!
# Trees being built

While markup is read, elements and texts are added to a tree whose nodes may still move.  Node
zero is the root.  What a template holds apart from its children stands below it like children,
until the tree is finished.

Main definitions:

- `Html.Tree`: nodes with links up and down.
- `Tree.create`, `Tree.append`, `Tree.insertBefore`, `Tree.detach`, `Tree.moveChildren`: growth and
  movement.
- `Tree.document`: the finished tree.
-/

namespace LiveMarkup
namespace Html

/-- A node of a tree being built; the unit tells that it holds its contents apart. -/
structure Tree.Cell where
  data : NodeData Unit
  parent? : Option Nat := none
  children : Array Nat := #[]

/-- A tree being built. -/
structure Tree where
  cells : Array Tree.Cell

namespace Tree

/-- The root. -/
def root : Nat := 0

/-- The tree of a root alone. -/
def new : Tree :=
  ⟨#[{ data := .element { base := "html" } [] none }]⟩

/-- The parent of a node. -/
def parent? (t : Tree) (id : Nat) : Option Nat :=
  t.cells[id]?.bind (·.parent?)

/-- The children of a node. -/
def children (t : Tree) (id : Nat) : Array Nat :=
  (t.cells[id]?.map (·.children)).getD #[]

/-- Change a node. -/
def modify (t : Tree) (id : Nat) (f : Cell → Cell) : Tree :=
  ⟨t.cells.modify id f⟩

/-- A new node without parent. -/
def create (t : Tree) (data : NodeData Unit) : Nat × Tree :=
  (t.cells.size, ⟨t.cells.push { data }⟩)

/-- Take a node from its parent. -/
def detach (t : Tree) (id : Nat) : Tree :=
  match t.parent? id with
  | none => t
  | some p =>
    (t.modify p fun cell => { cell with children := cell.children.filter (· != id) }).modify id
      fun cell => { cell with parent? := none }

/-- Put a node after the children of another. -/
def append (t : Tree) (parent child : Nat) : Tree :=
  (t.modify parent fun cell => { cell with children := cell.children.push child }).modify child
    fun cell => { cell with parent? := some parent }

/-- Put a node at a place among the children of another. -/
def insertAt (t : Tree) (parent place child : Nat) : Tree :=
  (t.modify parent fun cell =>
      { cell with
        children := cell.children.extract 0 place ++ #[child] ++ cell.children.extract place }).modify
    child fun cell => { cell with parent? := some parent }

/-- Add a character to a text. -/
def extendText (t : Tree) (id : Nat) (c : Char) : Tree :=
  t.modify id fun cell =>
    match cell.data with
    | .text contents => { cell with data := .text (contents.push c) }
    | _ => cell

/-- Whether a node is a text. -/
def isText (t : Tree) (id : Nat) : Bool :=
  match t.cells[id]? with
  | some { data := .text _, .. } => true
  | _ => false

/-- Put a character at a place among the children of a node: into the text before the place, or
else into a new text. -/
def insertCharAt (t : Tree) (parent place : Nat) (c : Char) : Tree :=
  match if place = 0 then none else (t.children parent)[place - 1]? with
  | some before =>
    if t.isText before then t.extendText before c
    else
      let (id, t) := t.create (.text (String.singleton c))
      t.insertAt parent place id
  | none =>
    let (id, t) := t.create (.text (String.singleton c))
    t.insertAt parent place id

/-- Put a character after the children of a node. -/
def appendChar (t : Tree) (parent : Nat) (c : Char) : Tree :=
  t.insertCharAt parent (t.children parent).size c

/-- Move the children of a node behind those of another. -/
def moveChildren (t : Tree) (source target : Nat) : Tree :=
  let moved := t.children source
  moved.foldl (fun t child => t.append target child)
    (t.modify source fun cell => { cell with children := #[] })

/-- Add those attributes to an element that it does not have. -/
def addMissing (t : Tree) (id : Nat) (attrs : List QualifiedAttribute) : Tree :=
  t.modify id fun cell =>
    match cell.data with
    | .element name own contents? =>
      let added := attrs.filter fun a => !own.any fun b => b.name == a.name
      { cell with data := .element name (own ++ added) contents? }
    | _ => cell

/-! ## The finished tree -/

end Tree

/-- The node with some data and the nodes below it. -/
def NodeData.toParsed (below : List ParsedNode) : NodeData Unit → ParsedNode
  | .document => .node .document below
  | .doctype name => .node (.doctype name) below
  | .text contents => .node (.text contents) below
  | .comment contents => .node (.comment contents) below
  | .element name attrs none => .node (.element name attrs none) below
  | .element name attrs (some ()) =>
    .node (.element name attrs (some (.node .document below))) []
  | .instruction target contents => .node (.instruction target contents) below

namespace Tree

/-- A node with the nodes below it, down to a depth. -/
def parsed? (t : Tree) : Nat → Nat → Option ParsedNode
  | 0, _ => none
  | depth + 1, id =>
    t.cells[id]?.map fun cell =>
      cell.data.toParsed (cell.children.toList.filterMap (t.parsed? depth))

/-- The finished tree: the root below a document.  No path is longer than the number of nodes. -/
def document (t : Tree) : ParsedNode :=
  .node .document (t.parsed? t.cells.size root).toList

end Tree
end Html
end LiveMarkup
