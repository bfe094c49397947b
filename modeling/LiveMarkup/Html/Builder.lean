import LiveMarkup.Html.Foreign
import LiveMarkup.Html.Tree

/-!
# Building a tree

The state in which tokens are turned into a tree: the tree itself, the open elements, the
formatting that is in force, and the insertion mode that selects the rules for the next token.

Nodes go to the end of the innermost open element.  While misplaced content of a table is moved out
of it, what would go directly into the table goes before the table instead.

Main definitions:

- `Html.Mode`: the insertion modes.
- `Html.Formatting`: an entry in the list of active formatting.
- `Html.Builder`: the state.
- `Html.Reply`: what a rule asks for.
- `Builder.enter`, `Builder.leaf`, `Builder.insertChar`, `Builder.insertComment`: growth.
- `Builder.reconstruct`, `Builder.enterFormatting`: formatting.
- `Builder.resetMode`: the mode that the open elements call for.
-/

namespace LiveMarkup
namespace Html

/-- The insertion modes. -/
inductive Mode where
  | beforeHead
  | inHead
  | afterHead
  | inBody
  | text
  | inTable
  | inTableText
  | inCaption
  | inColumnGroup
  | inTableBody
  | inRow
  | inCell
  | inSelect
  | inSelectInTable
  | inTemplate
  | afterBody
  | inFrameset
  deriving DecidableEq, Repr

/-- An entry in the list of active formatting. -/
inductive Formatting where
  /-- Formatting before it does not reach what follows. -/
  | marker
  | element (e : Element) (attrs : List Attribute)

/-- The state of building. -/
structure Builder where
  tree : Tree := .new
  /-- The open elements, innermost first. -/
  stack : List Element := [{ id := Tree.root, space := .html, name := "html" }]
  /-- The active formatting, latest first. -/
  formatting : List Formatting := []
  mode : Mode := .inBody
  /-- The mode after a text. -/
  modeAfter : Mode := .inBody
  /-- The modes inside the open templates, innermost first. -/
  templateModes : List Mode := []
  /-- The name of the element whose content is built. -/
  context : String := "body"
  head? : Option Element := none
  /-- The form that new fields belong to. -/
  form? : Option Element := none
  /-- Whether a set of frames may still replace the body. -/
  framesAllowed : Bool := true
  /-- Whether a newline at the start of a text is dropped. -/
  dropsNewline : Bool := false
  /-- Whether content is moved out of tables. -/
  fostering : Bool := false
  /-- The text inside a table that still waits for its place, latest character first. -/
  waiting : List Char := []

/-- What a rule asks for. -/
inductive Reply where
  /-- The next token. -/
  | done
  /-- The same token once more, in the mode that is now set. -/
  | again
  /-- The next token, read as a kind of content. -/
  | content (kind : Content)

/-- The result of a rule. -/
abbrev Step := Builder × Reply

namespace Builder

/-- The token is dealt with. -/
def done (b : Builder) : Step := (b, .done)

/-- The token is for another mode. -/
def again (b : Builder) (mode : Mode) : Step := ({ b with mode }, .again)

/-- The token is dealt with, and another mode follows. -/
def go (b : Builder) (mode : Mode) : Step := ({ b with mode }, .done)

/-! ## Open elements -/

/-- The innermost open element. -/
def current? (b : Builder) : Option Element :=
  b.stack.head?

/-- Whether the innermost open element satisfies a condition. -/
def currentIs (b : Builder) (p : Element → Bool) : Bool :=
  b.current?.any p

/-- Whether an HTML element of a name is open. -/
def isOpen (b : Builder) (name : String) : Bool :=
  b.stack.any (·.named name)

/-- Whether an HTML element of a name is open without a bound inside it. -/
def inScope (b : Builder) (bound : Element → Bool) (name : String) : Bool :=
  Html.inScope bound (·.named name) b.stack

/-- Change the open elements. -/
def restack (b : Builder) (f : List Element → List Element) : Builder :=
  { b with stack := f b.stack }

/-- Close the innermost element. -/
def pop (b : Builder) : Builder :=
  b.restack (·.drop 1)

/-- Close elements up to and including the innermost of a name. -/
def close (b : Builder) (name : String) : Builder :=
  b.restack (closeThrough (·.named name))

/-- Close elements whose end tag may be left out, but not those of a name. -/
def closeImpliedBut (b : Builder) (name : String) : Builder :=
  b.restack (closeImplied (Element.impliedEnds.filter (· != name)))

/-- Close elements whose end tag may be left out. -/
def closeImplied (b : Builder) : Builder :=
  b.restack (Html.closeImplied Element.impliedEnds)

/-- Close a paragraph, with the elements inside it. -/
def closeParagraph (b : Builder) : Builder :=
  (b.closeImpliedBut "p").close "p"

/-- Close a paragraph if one is open up to the next button. -/
def closeParagraphInScope (b : Builder) : Builder :=
  if b.inScope Element.boundsParagraph "p" then b.closeParagraph else b

/-! ## Places -/

/-- Where a node goes. -/
inductive Place where
  | last (parent : Nat)
  | before (parent place : Nat)

/-- The place before the innermost table, or at the end of a template inside all tables.  A table
without parent hands its place to the element that it was opened in. -/
def fosterPlace (b : Builder) : List Element → Place
  | [] => .last Tree.root
  | e :: rest =>
    if e.named "template" then .last e.id
    else if e.named "table" then
      match b.tree.parent? e.id with
      | some p => .before p (((b.tree.children p).findIdx? (· == e.id)).getD 0)
      | none => .last ((rest.head?.map (·.id)).getD Tree.root)
    else fosterPlace b rest

/-- The place for a node that belongs into an element. -/
def placeIn (b : Builder) (target : Element) : Place :=
  if b.fostering && target.among Element.tableParts then b.fosterPlace b.stack
  else .last target.id

/-- The place for a node at this point. -/
def place (b : Builder) : Place :=
  match b.current? with
  | some e => b.placeIn e
  | none => .last Tree.root

/-- Put a node at a place. -/
def put (b : Builder) (place : Place) (id : Nat) : Builder :=
  match place with
  | .last p => { b with tree := b.tree.append p id }
  | .before p i => { b with tree := b.tree.insertAt p i id }

/-! ## Growth -/

/-- A new element that is not in the tree yet.  A template holds its contents apart. -/
def create (b : Builder) (space : Namespace) (name : String) (attrs : List Attribute) :
    Element × Builder :=
  let contents? := if space = .html ∧ name = "template" then some () else none
  let (id, tree) :=
    b.tree.create (.element { base := name } (Foreign.adjust space attrs) contents?)
  let annotation := Foreign.isAnnotation space name attrs
  ({ id, space, name, annotation }, { b with tree })

/-- A new element at this point; it is not opened. -/
def insert (b : Builder) (space : Namespace) (name : String) (attrs : List Attribute) :
    Element × Builder :=
  let place := b.place
  let (e, b) := b.create space name attrs
  (e, b.put place e.id)

/-- A new element at this point, and open it. -/
def insertOpen (b : Builder) (space : Namespace) (name : String) (attrs : List Attribute) :
    Element × Builder :=
  let (e, b) := b.insert space name attrs
  (e, { b with stack := e :: b.stack })

/-- Open the element of a start tag. -/
def enter (b : Builder) (tag : StartTag) : Builder :=
  (b.insertOpen .html tag.name tag.attrs).2

/-- Open an element that no tag names. -/
def enterImplied (b : Builder) (name : String) : Builder :=
  (b.insertOpen .html name []).2

/-- Add the element of a start tag without opening it. -/
def leaf (b : Builder) (tag : StartTag) : Builder :=
  (b.insert .html tag.name tag.attrs).2

/-- Open the element of a start tag and read its content as text. -/
def enterText (b : Builder) (tag : StartTag) (kind : Content) : Step :=
  let b := b.enter tag
  ({ b with modeAfter := b.mode, mode := .text }, .content kind)

/-- Add a character. -/
def insertChar (b : Builder) (c : Char) : Builder :=
  match b.place with
  | .last p => { b with tree := b.tree.appendChar p c }
  | .before p i => { b with tree := b.tree.insertCharAt p i c }

/-- Add a comment at the end of an element. -/
def insertCommentIn (b : Builder) (parent : Nat) (data : String) : Builder :=
  let (id, tree) := b.tree.create (.comment data)
  { b with tree := tree.append parent id }

/-- Add a comment. -/
def insertComment (b : Builder) (data : String) : Builder :=
  let (id, tree) := b.tree.create (.comment data)
  { b with tree }.put b.place id

/-- Frames may no longer replace the body. -/
def forbidFrames (b : Builder) : Builder :=
  { b with framesAllowed := false }

/-! ## Formatting -/

/-- The active formatting that reaches this point, latest first. -/
def reaching : List Formatting → List (Element × List Attribute)
  | .element e attrs :: rest => (e, attrs) :: reaching rest
  | _ => []

/-- Whether an entry is for an element. -/
def Formatting.isFor (e : Element) : Formatting → Bool
  | .marker => false
  | .element o _ => o.same e

/-- Whether an element is in the list of active formatting. -/
def isFormatting (b : Builder) (e : Element) : Bool :=
  b.formatting.any (Formatting.isFor e)

/-- Take an element from the list of active formatting. -/
def dropFormatting (b : Builder) (e : Element) : Builder :=
  { b with formatting := b.formatting.eraseP (Formatting.isFor e) }

/-- Formatting does not reach beyond this point. -/
def markFormatting (b : Builder) : Builder :=
  { b with formatting := .marker :: b.formatting }

/-- The active formatting without what follows the latest marker, and without the marker. -/
def beforeMarker : List Formatting → List Formatting
  | [] => []
  | .marker :: rest => rest
  | .element _ _ :: rest => beforeMarker rest

/-- Forget the formatting since the latest marker, and the marker. -/
def clearFormatting (b : Builder) : Builder :=
  { b with formatting := beforeMarker b.formatting }

/-- Open the elements of formatting entries anew, the oldest first; the entries, latest first, and
the state. -/
def reopen (b : Builder) : List (Element × List Attribute) → List Formatting × Builder
  | [] => ([], b)
  | (e, attrs) :: older =>
    let (entries, b) := b.reopen older
    let (e, b) := b.insertOpen .html e.name attrs
    (.element e attrs :: entries, b)

/-- Open anew the elements of the formatting that reaches this point and that is no longer open. -/
def reconstruct (b : Builder) : Builder :=
  let closed := (reaching b.formatting).takeWhile fun entry => !b.stack.any (·.same entry.1)
  let (entries, b) := b.reopen closed
  { b with formatting := entries ++ b.formatting.drop closed.length }

/-- Whether two lists of attributes are equal up to their order. -/
def sameAttrs (xs ys : List Attribute) : Bool :=
  xs.length == ys.length && xs.all ys.contains

/-- Formatting with an entry more.  Of entries with one name and the same attributes, at most three
reach one point: the oldest makes room. -/
def addFormatting (entries : List Formatting) (e : Element) (attrs : List Attribute) :
    List Formatting :=
  let alike := (reaching entries).filter fun o => o.1.name == e.name && sameAttrs o.2 attrs
  let entries :=
    match alike[2]?, alike.getLast? with
    | some _, some oldest => entries.eraseP (Formatting.isFor oldest.1)
    | _, _ => entries
  .element e attrs :: entries

/-- Open the element of a start tag as formatting. -/
def enterFormatting (b : Builder) (tag : StartTag) : Builder :=
  let (e, b) := b.insertOpen .html tag.name tag.attrs
  { b with formatting := addFormatting b.formatting e tag.attrs }

/-! ## Modes -/

/-- The mode for a selection whose ancestors are given. -/
def selectMode : List Element → Mode
  | [] => .inSelect
  | e :: rest =>
    if e.named "template" then .inSelect
    else if e.named "table" then .inSelectInTable
    else selectMode rest

/-- The mode that an open HTML element calls for, if any.  The last element stands for the context,
in which a cell and a head call for none. -/
def modeOf? (b : Builder) (name : String) (last : Bool) (ancestors : List Element) : Option Mode :=
  match name with
  | "select" => some (selectMode ancestors)
  | "td" => if last then none else some .inCell
  | "th" => if last then none else some .inCell
  | "tr" => some .inRow
  | "tbody" => some .inTableBody
  | "thead" => some .inTableBody
  | "tfoot" => some .inTableBody
  | "caption" => some .inCaption
  | "colgroup" => some .inColumnGroup
  | "table" => some .inTable
  | "template" => b.templateModes.head?
  | "head" => if last then none else some .inHead
  | "body" => some .inBody
  | "frameset" => some .inFrameset
  | "html" => some (if b.head?.isSome then .afterHead else .beforeHead)
  | _ => none

/-- The mode that open elements call for. -/
def modeFor (b : Builder) : List Element → Mode
  | [] => .inBody
  | [_] => (b.modeOf? b.context true []).getD .inBody
  | e :: rest =>
    match if e.space = .html then b.modeOf? e.name false rest else none with
    | some mode => mode
    | none => modeFor b rest

/-- The mode that the open elements call for. -/
def resetMode (b : Builder) : Mode :=
  b.modeFor b.stack

/-- The state before the content of an element of a name. -/
def new (context : String) : Builder :=
  let b : Builder :=
    { context, templateModes := if context = "template" then [.inTemplate] else [] }
  { b with mode := b.resetMode }

/-! ## Foreign content -/

/-- The innermost open element where it is foreign; the context is not. -/
def foreign? (b : Builder) : Option Element :=
  match b.stack with
  | [] => none
  | [_] => none
  | e :: _ => if e.space = .html then none else some e

end Builder
end Html
end LiveMarkup
