import LiveMarkup.Markup.ParseError

/-!
# The live tree

Live nodes are held in slots.  A handle names a slot together with a generation, which counts how
often the slot was freed; a handle is live as long as its slot is filled and the generations agree.
Freed slots are filled again, the last freed first.

The links between nodes go both ways: a node lists its children and records its parent.

Main definitions:

- `NodeId`: handles.
- `LiveData`, `LiveEntry`, `Slot`, `Dom`: the tree.
- `Dom.alloc`, `Dom.release`, `Dom.releaseSubtree`: filling and freeing slots.
- `Dom.detach`, `Dom.insertChild`: moving nodes.
- `DomError`: why an operation fails.
-/

namespace LiveMarkup

/-- A handle: a slot and a generation. -/
structure NodeId where
  index : Nat
  generation : UInt32
  deriving DecidableEq, Repr

/-- The form of a handle in messages. -/
def NodeId.text (id : NodeId) : String :=
  toString id.index ++ "v" ++ toString id.generation.toNat

/-- The tag of an element, the key by which patches find it, and its attributes. -/
structure LiveElement where
  tag : String
  key : Option String := none
  attrs : List Attribute := []
  deriving DecidableEq, Repr

/-- What a live node is. -/
inductive LiveData where
  | element (e : LiveElement)
  | text (content : String)
  | comment (content : String)
  deriving DecidableEq, Repr

/-- A live node with its links. -/
structure LiveEntry where
  data : LiveData
  parent : Option NodeId := none
  children : List NodeId := []
  deriving DecidableEq, Repr

/-- A place for a node. -/
structure Slot where
  generation : UInt32 := 0
  entry : Option LiveEntry := none
  deriving DecidableEq, Repr

/-- How the nodes of a patch came about, and how many were freed. -/
structure PatchSummary where
  created : Nat := 0
  /-- Found at the cursor. -/
  reused : Nat := 0
  /-- Found further on and moved to the cursor. -/
  moved : Nat := 0
  /-- Children that were left over when their parent was closed. -/
  removed : Nat := 0
  deriving DecidableEq, Repr

/-- Live nodes. -/
structure Dom where
  slots : Array Slot := #[]
  /-- The empty slots, the last freed first. -/
  free : List Nat := []
  /-- The summary of the latest patch. -/
  lastPatch : PatchSummary := {}
  deriving DecidableEq, Repr

/-- Why an operation on the tree fails. -/
inductive DomError where
  | unknownNode (id : NodeId)
  | notAnElement (id : NodeId)
  | hierarchyRequest (parent child : NodeId)
  | unbalancedClose (tag : String)
  | unclosed (tag : String)
  | parse (e : ParseError)
  deriving DecidableEq, Repr

/-- The wording of an error. -/
def DomError.message : DomError → String
  | .unknownNode id => "unknown node " ++ id.text
  | .notAnElement id => "node " ++ id.text ++ " is not an element"
  | .hierarchyRequest parent child =>
    "cannot append " ++ child.text ++ " under its descendant " ++ parent.text
  | .unbalancedClose tag => "unbalanced close of <" ++ tag ++ ">"
  | .unclosed tag => "<" ++ tag ++ "> left open at end of patch"
  | .parse e => "parse error: " ++ e.message

namespace Dom

/-! ## Access -/

/-- The number of live nodes. -/
def size (d : Dom) : Nat :=
  d.slots.size - d.free.length

/-- The live node that a handle names. -/
def entry? (d : Dom) (id : NodeId) : Option LiveEntry :=
  match d.slots[id.index]? with
  | some slot => if slot.generation = id.generation then slot.entry else none
  | none => none

/-- Whether a handle names a live node. -/
def isLive (d : Dom) (id : NodeId) : Bool :=
  (d.entry? id).isSome

/-- What a live node is. -/
def data? (d : Dom) (id : NodeId) : Option LiveData :=
  (d.entry? id).map (·.data)

/-- The element that a live node is. -/
def element? (d : Dom) (id : NodeId) : Option LiveElement :=
  match d.data? id with
  | some (.element e) => some e
  | _ => none

/-- Whether a handle names a live element. -/
def isElement (d : Dom) (id : NodeId) : Bool :=
  (d.element? id).isSome

/-- The tag of a live element. -/
def tag? (d : Dom) (id : NodeId) : Option String :=
  (d.element? id).map (·.tag)

/-- The key of a live element that has one. -/
def key? (d : Dom) (id : NodeId) : Option String :=
  (d.element? id).bind (·.key)

/-- The value of the first attribute of a live element with a name. -/
def attribute? (d : Dom) (id : NodeId) (name : String) : Option String :=
  (d.element? id).bind fun e => Attribute.find? e.attrs name

/-- The content of a live text or comment. -/
def text? (d : Dom) (id : NodeId) : Option String :=
  match d.data? id with
  | some (.text content) => some content
  | some (.comment content) => some content
  | _ => none

/-- The parent of a live node that has one. -/
def parent? (d : Dom) (id : NodeId) : Option NodeId :=
  (d.entry? id).bind (·.parent)

/-- The children of a live node. -/
def children (d : Dom) (id : NodeId) : List NodeId :=
  match d.entry? id with
  | some entry => entry.children
  | none => []

/-- Nothing if a handle names a live element, else the reason why not. -/
def requireElement (d : Dom) (id : NodeId) : Except DomError Unit :=
  match d.data? id with
  | some (.element _) => .ok ()
  | some _ => .error (.notAnElement id)
  | none => .error (.unknownNode id)

/-! ## Slots -/

/-- Change the live node that a handle names. -/
def modify (d : Dom) (id : NodeId) (f : LiveEntry → LiveEntry) : Dom :=
  match d.slots[id.index]? with
  | some slot =>
    if slot.generation = id.generation then
      { d with slots := d.slots.setIfInBounds id.index { slot with entry := slot.entry.map f } }
    else d
  | none => d

/-- The largest index of a slot. -/
def maxIndex : Nat := Nat.pow 2 32 - 1

/-- Fill a slot with a node without links: the last freed slot, or else a new one. -/
def alloc (d : Dom) (data : LiveData) : NodeId × Dom :=
  match d.free with
  | index :: free =>
    let generation := ((d.slots[index]?).map (·.generation)).getD 0
    ({ index, generation },
      { d with
        slots := d.slots.setIfInBounds index { generation, entry := some { data } }
        free })
  | [] =>
    ({ index := min d.slots.size maxIndex, generation := 0 },
      { d with slots := d.slots.push { generation := 0, entry := some { data } } })

/-- Free the slot of a live node. -/
def release (d : Dom) (id : NodeId) : Dom :=
  match d.slots[id.index]? with
  | some { generation, entry := some _ } =>
    if generation = id.generation then
      { d with
        slots := d.slots.setIfInBounds id.index { generation := generation + 1, entry := none }
        free := id.index :: d.free }
    else d
  | _ => d

/-- The nodes of a subtree in the order in which they are freed: a node before its children, later
children first.  The bound is on the depth. -/
def releaseOrder (d : Dom) : Nat → NodeId → List NodeId
  | 0, _ => []
  | depth + 1, id => id :: (d.children id).reverse.flatMap (d.releaseOrder depth)

/-- Free a node and everything below it. -/
def releaseSubtree (d : Dom) (id : NodeId) : Dom :=
  (d.releaseOrder d.slots.size id).foldl release d

/-! ## Links -/

/-- Take a node from its parent. -/
def detach (d : Dom) (id : NodeId) : Dom :=
  match d.parent? id with
  | none => d
  | some parent =>
    (d.modify parent fun e => { e with children := e.children.filter fun c => c != id }).modify id
      fun e => { e with parent := none }

/-- Put a node among the children of a parent, before the child at an index or at the end, taking
it from where it was. -/
def insertChild (d : Dom) (parent : NodeId) (index : Nat) (child : NodeId) : Dom :=
  ((d.detach child).modify parent fun e =>
    { e with children := e.children.insertIdx (min index e.children.length) child }).modify child
      fun e => { e with parent := some parent }

end Dom
end LiveMarkup
