import LiveMarkup.Dom.Walk
import LiveMarkup.Patch.Compile

/-!
# Editing the live tree

Nodes are created without a parent, moved by handles, and imported from markup.  An operation that
fails changes nothing.

Main definitions:

- `Dom.createElement`, `Dom.createText`: new nodes.
- `Dom.setAttribute`: sets an attribute, and the key with the first id of an unkeyed element.
- `Dom.appendChild`, `Dom.remove`: moving and taking out nodes.
- `Dom.importNode`, `Dom.importFragment`, `Dom.parseInto`: nodes from markup.
-/

namespace LiveMarkup
namespace Dom

/-- A new element without key, attributes and parent. -/
def createElement (d : Dom) (tag : String) : NodeId × Dom :=
  d.alloc (.element { tag })

/-- A new text without parent. -/
def createText (d : Dom) (content : String) : NodeId × Dom :=
  d.alloc (.text content)

/-- Attributes with one of them set: the first with the name, or else a new one at the end. -/
def setIn (name value : String) : List Attribute → List Attribute
  | [] => [{ name, value }]
  | a :: rest => if a.name = name then { a with value } :: rest else a :: setIn name value rest

/-- An element with an attribute set.  The id of an element without a key becomes its key. -/
def setOn (name value : String) (e : LiveElement) : LiveElement :=
  { e with
    attrs := setIn name value e.attrs
    key := if name = "id" && e.key.isNone then some value else e.key }

/-- Change the element that a handle names. -/
def modifyElement (d : Dom) (id : NodeId) (f : LiveElement → LiveElement) : Dom :=
  d.modify id fun entry =>
    match entry.data with
    | .element e => { entry with data := .element (f e) }
    | _ => entry

/-- Set an attribute of an element. -/
def setAttribute (d : Dom) (id : NodeId) (name value : String) : Except DomError Dom :=
  match d.requireElement id with
  | .ok () => .ok (d.modifyElement id (setOn name value))
  | .error e => .error e

/-- Move a node to the end of the children of an element. -/
def appendChild (d : Dom) (parent child : NodeId) : Except DomError Dom :=
  match d.requireElement parent with
  | .error e => .error e
  | .ok () =>
    if !d.isLive child then .error (.unknownNode child)
    else if d.contains child parent then .error (.hierarchyRequest parent child)
    else .ok (d.insertChild parent (d.children parent).length child)

/-- Take a node from its parent; it stays live. -/
def remove (d : Dom) (id : NodeId) : Except DomError Dom :=
  if d.isLive id then .ok (d.detach id) else .error (.unknownNode id)

/-! ## Import -/

/-- Put a node at the end of the children of a parent. -/
def insertLast (d : Dom) (parent child : NodeId) : Dom :=
  d.insertChild parent (d.children parent).length child

mutual

/-- A new live node for a node and everything below it; none for a directive. -/
def importNode (d : Dom) : Node → Option NodeId × Dom
  | .element tag attrs children =>
    let (id, d) := d.alloc (.element { tag, key := Key.authored? attrs, attrs })
    (some id, importUnder d id children)
  | .text data =>
    let (id, d) := d.alloc (.text data)
    (some id, d)
  | .comment data =>
    let (id, d) := d.alloc (.comment data)
    (some id, d)
  | .directive _ => (none, d)

/-- New live nodes at the end of the children of a parent. -/
def importUnder (d : Dom) (parent : NodeId) : List Node → Dom
  | [] => d
  | n :: rest =>
    match importNode d n with
    | (some child, d) => importUnder (d.insertLast parent child) parent rest
    | (none, d) => importUnder d parent rest

end

/-- New live nodes at the end of the children of a parent, and their handles. -/
def importNodes (d : Dom) (parent : NodeId) : List Node → List NodeId × Dom
  | [] => ([], d)
  | n :: rest =>
    match d.importNode n with
    | (some child, d) =>
      let (added, d) := importNodes (d.insertLast parent child) parent rest
      (child :: added, d)
    | (none, d) => importNodes d parent rest

/-- The nodes of a fragment at the end of the children of a parent, and their handles. -/
def importFragment (d : Dom) (parent : NodeId) (f : Fragment) : List NodeId × Dom :=
  d.importNodes parent (f.forest Fragment.root)

/-- The nodes of markup at the end of the children of an element, and their handles. -/
def parseInto (parser : MarkupParser) (d : Dom) (parent : NodeId) (markup : String) :
    Except DomError (List NodeId × Dom) :=
  match d.requireElement parent with
  | .error e => .error e
  | .ok () =>
    match parser markup with
    | .error e => .error (.parse e)
    | .ok f => .ok (d.importFragment parent f)

end Dom
end LiveMarkup
