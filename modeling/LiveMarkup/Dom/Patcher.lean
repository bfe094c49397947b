import LiveMarkup.Dom.Edit
import LiveMarkup.Patch.Cache

/-!
# Patching the live tree

A patch walks the children of its target with a cursor for each open element.  An element that is
opened is looked for at the cursor and after it, by tag and key; one that is found is moved to the
cursor, and otherwise a new one is put there.  A text takes over the text at the cursor, or else is
new.  When an element is closed, the children after its cursor are freed.

The first fault stops the walk; what was done before it stays.

Main definitions:

- `Cursor`, `Patcher`: the state of a walk.
- `Patcher.openElement`, `Patcher.closeElement`, `Patcher.text`: its steps.
- `Patcher.finish`: its end.
- `Dom.patch`: instructions followed below a target.
-/

namespace LiveMarkup

/-- An open element, and how many of its children are done. -/
structure Cursor where
  parent : NodeId
  next : Nat := 0
  deriving DecidableEq, Repr

/-- A walk: the tree, the open elements from the innermost to the target, what was counted, and the
fault that stopped it. -/
structure Patcher where
  dom : Dom
  frames : List Cursor
  summary : PatchSummary := {}
  fault : Option DomError := none

namespace Patcher

/-- The first child of an element, from an index on, that satisfies a condition, with its index. -/
def findFrom? (d : Dom) (parent : NodeId) (start : Nat) (p : LiveData → Bool) :
    Option (Nat × NodeId) :=
  (((d.children parent).zipIdx.drop start).find? fun (id, _) =>
    match d.data? id with
    | some data => p data
    | none => false).map fun (id, index) => (index, id)

/-- Free the children of an element after its cursor. -/
def trim (p : Patcher) (frame : Cursor) : Patcher :=
  let stale := (p.dom.children frame.parent).drop frame.next
  let kept := p.dom.modify frame.parent fun e => { e with children := e.children.take frame.next }
  { p with
    dom := stale.foldl Dom.releaseSubtree kept
    summary := { p.summary with removed := p.summary.removed + stale.length } }

/-- Whether a node is an element with a tag and a key. -/
def isElementWith (tag key : String) : LiveData → Bool
  | .element e => e.tag == tag && e.key == some key
  | _ => false

/-- The element with a tag and a key at the cursor: the one there, one from further on, or a new
one. -/
def place (d : Dom) (summary : PatchSummary) (frame : Cursor) (tag key : String) :
    NodeId × Dom × PatchSummary :=
  match findFrom? d frame.parent frame.next (isElementWith tag key) with
  | some (index, id) =>
    if index = frame.next then (id, d, { summary with reused := summary.reused + 1 })
    else
      (id, d.insertChild frame.parent frame.next id,
        { summary with moved := summary.moved + 1 })
  | none =>
    let (id, d) := d.alloc (.element { tag, key := some key })
    (id, d.insertChild frame.parent frame.next id,
      { summary with created := summary.created + 1 })

/-- Open an element at the cursor. -/
def openElement (tag key : String) (attrs : List Attribute) (p : Patcher) : Patcher :=
  if p.fault.isSome then p
  else
    match p.frames with
    | [] => p
    | frame :: outer =>
      let (id, d, summary) := place p.dom p.summary frame tag key
      { p with
        dom := d.modifyElement id fun e => { e with attrs }
        frames := { parent := id } :: { frame with next := frame.next + 1 } :: outer
        summary }

/-- Close the innermost open element, which must have the tag; the target cannot be closed. -/
def closeElement (tag : String) (p : Patcher) : Patcher :=
  if p.fault.isSome then p
  else
    match p.frames with
    | frame :: outer :: rest =>
      if p.dom.tag? frame.parent = some tag then
        { p with frames := outer :: rest }.trim frame
      else { p with fault := some (.unbalancedClose tag) }
    | _ => { p with fault := some (.unbalancedClose tag) }

/-- The content of a text replaced. -/
def setText (content : String) (entry : LiveEntry) : LiveEntry :=
  match entry.data with
  | .text _ => { entry with data := .text content }
  | _ => entry

/-- Place a text at the cursor. -/
def text (content : String) (p : Patcher) : Patcher :=
  if p.fault.isSome then p
  else
    match p.frames with
    | [] => p
    | frame :: outer =>
      let frames := { frame with next := frame.next + 1 } :: outer
      let reusable := match (p.dom.children frame.parent)[frame.next]? with
        | some id =>
          match p.dom.data? id with
          | some (.text _) => some id
          | _ => none
        | none => none
      match reusable with
      | some id =>
        { p with
          dom := p.dom.modify id (setText content)
          frames
          summary := { p.summary with reused := p.summary.reused + 1 } }
      | none =>
        let (id, d) := p.dom.alloc (.text content)
        { p with
          dom := d.insertChild frame.parent frame.next id
          frames
          summary := { p.summary with created := p.summary.created + 1 } }

instance : Surface Patcher where
  openElement := openElement
  closeElement := closeElement
  text := text

/-- End a walk: the tree, and the fault that stopped the walk or an element left open. -/
def finish (p : Patcher) : Except DomError Unit × Dom :=
  match p.fault, p.frames with
  | some e, _ => (.error e, { p.dom with lastPatch := p.summary })
  | none, [root] =>
    let p := p.trim root
    (.ok (), { p.dom with lastPatch := p.summary })
  | none, frame :: _ =>
    (.error (.unclosed ((p.dom.tag? frame.parent).getD "")),
      { p.dom with lastPatch := p.summary })
  | none, [] => (.ok (), { p.dom with lastPatch := p.summary })

end Patcher

namespace Dom

/-- Let a body follow instructions below a target.  The body is not run if the target is not a live
element; its own result is given back if it is run. -/
def patchWith {α : Type} (d : Dom) (target : NodeId) (body : Patcher → α × Patcher) :
    Except DomError Unit × Option α × Dom :=
  match d.requireElement target with
  | .error e => (.error e, none, d)
  | .ok () =>
    let (a, p) := body { dom := d, frames := [{ parent := target }] }
    let (result, d) := p.finish
    (result, some a, d)

/-- Follow instructions below a target. -/
def patch (d : Dom) (target : NodeId) (instructions : List Instruction) :
    Except DomError Unit × Dom :=
  let (result, _, d) := d.patchWith target fun p => ((), Instruction.replayAll instructions p)
  (result, d)

end Dom

/-- Follow the instructions of a patch below a target. -/
def Patch.apply (patch : Patch) (d : Dom) (target : NodeId) : Except DomError Unit × Dom :=
  d.patch target patch.instructions

end LiveMarkup
