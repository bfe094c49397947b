import LiveMarkup.Dom.Basic
import LiveMarkup.Markup.Serialize

/-!
# Walks of the live tree

Walks up the tree follow parents; walks down follow children, with a list of the nodes that lie
ahead.  No walk meets a node twice, so the number of slots bounds their steps.

Main definitions:

- `Dom.meets?`, `Dom.contains`: a walk up, and whether a node lies below another.
- `Dom.collectText?`, `Dom.textContent`: a walk down, and the texts that it comes upon.
- `Dom.searchId?`, `Dom.elementById?`: a walk down to the first element with an id attribute.
- `LiveNode`, `Dom.tree?`, `Dom.forest`: a live node, and what lies below one, as trees.
- `Dom.outerMarkup`, `Dom.innerMarkup`: markup.
-/

namespace LiveMarkup

/-- A live node with everything below it, freed from its slots. -/
inductive LiveNode where
  | element (tag : String) (key : Option String) (attrs : List Attribute)
      (children : List LiveNode)
  | text (content : String)
  | comment (content : String)
  deriving Inhabited

namespace LiveNode

mutual

/-- A live node without its keys. -/
def toNode : LiveNode → Node
  | .element tag _ attrs children => .element tag attrs (toNodes children)
  | .text content => .text content
  | .comment content => .comment content

/-- Live nodes without their keys. -/
def toNodes : List LiveNode → List Node
  | [] => []
  | n :: rest => toNode n :: toNodes rest

end

end LiveNode

namespace Dom

/-! ## Walks -/

/-- Whether a walk up comes by a node, from a node on or from above the top.  There is no answer if
it has not ended after a number of steps. -/
def meets? (d : Dom) (ancestor : NodeId) : Nat → Option NodeId → Option Bool
  | _, none => some false
  | 0, some _ => none
  | steps + 1, some id =>
    if id = ancestor then some true else d.meets? ancestor steps (d.parent? id)

/-- Whether a node is another or lies below it. -/
def contains (d : Dom) (ancestor node : NodeId) : Bool :=
  (d.meets? ancestor (d.slots.size + 1) (some node)).getD false

/-- The texts that a walk comes upon which has some nodes ahead of it, behind those found before.  A
step takes the first of these nodes and puts the children of an element ahead of the others.  There
is no answer if nodes are left after a number of steps. -/
def collectText? (d : Dom) : Nat → List NodeId → String → Option String
  | _, [], found => some found
  | 0, _ :: _, _ => none
  | steps + 1, id :: ahead, found =>
    match d.data? id with
    | some (.text content) => d.collectText? steps ahead (found ++ content)
    | some (.element _) => d.collectText? steps (d.children id ++ ahead) found
    | _ => d.collectText? steps ahead found

/-- The texts of a node and of everything below it, one after the other. -/
def textContent (d : Dom) (id : NodeId) : String :=
  (d.collectText? (d.slots.size + 1) [id] "").getD ""

/-- The first element with an id attribute that a walk comes upon which has some nodes ahead of it.
A step takes the first of these nodes and, unless it is that element, puts its children ahead of the
others.  There is no answer if nodes are left after a number of steps. -/
def searchId? (d : Dom) (id : String) : Nat → List NodeId → Option (Option NodeId)
  | _, [] => some none
  | 0, _ :: _ => none
  | steps + 1, node :: ahead =>
    if d.attribute? node "id" = some id then some (some node)
    else d.searchId? id steps (d.children node ++ ahead)

/-- The first element in a subtree with an id attribute. -/
def elementById? (d : Dom) (root : NodeId) (id : String) : Option NodeId :=
  (d.searchId? id (d.slots.size + 1) [root]).getD none

/-! ## Trees -/

/-- A live node as a tree, down to a depth. -/
def treeTo? (d : Dom) : Nat → NodeId → Option LiveNode
  | 0, _ => none
  | depth + 1, id =>
    match d.entry? id with
    | some { data := .element e, children, .. } =>
      some (.element e.tag e.key e.attrs (children.filterMap (d.treeTo? depth)))
    | some { data := .text content, .. } => some (.text content)
    | some { data := .comment content, .. } => some (.comment content)
    | none => none

/-- A live node as a tree. -/
def tree? (d : Dom) (id : NodeId) : Option LiveNode :=
  d.treeTo? (d.slots.size + 1) id

/-- The nodes below a live node as trees. -/
def forest (d : Dom) (id : NodeId) : List LiveNode :=
  (d.children id).filterMap d.tree?

/-! ## Markup -/

/-- Whether an element keeps texts as they are. -/
def keepsText (d : Dom) (id : NodeId) : Bool :=
  match d.tag? id with
  | some tag => Markup.isRawText tag
  | none => false

/-- The markup of a live node with its own tags. -/
def outerMarkup (d : Dom) (id : NodeId) : String :=
  let raw := match d.parent? id with
    | some parent => d.keepsText parent
    | none => false
  match d.tree? id with
  | some node => node.toNode.markup raw
  | none => ""

/-- The markup of the nodes below a live node. -/
def innerMarkup (d : Dom) (id : NodeId) : String :=
  Node.markupAll (d.keepsText id) (LiveNode.toNodes (d.forest id))

end Dom
end LiveMarkup
