import LiveMarkup.Html.Builder

/-!
# Misnested formatting

The end tag of formatting may come while other elements are still open inside it, as in
`<b>1<p>2</b>3</p>`.  Then the formatting ends inside each of them: what they hold so far moves into
a copy of the formatting element, `<b>1</b><p><b>2</b>3</p>`.

One round of the repair deals with the innermost formatting element of the name and the outermost
element with rules of its own inside it, the block.  The elements between the two are copied around
the block one by one, from the inside to the outside; those that are no formatting, and those beyond
the third, are closed instead.

Main definitions:

- `Html.Ladder`: the state of the way from the block out to the formatting element.
- `Builder.adoptOnce`: one round.
- `Builder.closeFormatting`: the repair for an end tag.
- `Builder.closeOther`: an end tag without rules of its own.
-/

namespace LiveMarkup
namespace Html

/-- The way from a block out to the formatting element around it. -/
structure Ladder where
  builder : Builder
  /-- The outermost element so far. -/
  last : Element
  /-- The copies that stay open, innermost first. -/
  kept : List Element := []
  /-- The innermost copy. -/
  innermost? : Option Element := none

/-- Entries with the entry of an element changed. -/
def replaceFormatting (e : Element) (new : Formatting) (entries : List Formatting) :
    List Formatting :=
  entries.map fun entry => if Builder.Formatting.isFor e entry then new else entry

/-- Entries, latest first, with another that came after the entry of an element. -/
def addFormattingAfter (e : Element) (new : Formatting) (entries : List Formatting) :
    List Formatting :=
  entries.flatMap fun entry =>
    if Builder.Formatting.isFor e entry then [new, entry] else [entry]

namespace Ladder

/-- Copy an element around the outermost so far, unless it is closed instead. -/
def climb (l : Ladder) (rung : Element × Nat) : Ladder :=
  let (node, i) := rung
  let b := l.builder
  if 3 ≤ i then { l with builder := b.dropFormatting node }
  else
    match (Builder.reaching b.formatting).find? fun entry => entry.1.same node with
    | none => l
    | some (_, attrs) =>
      let (copy, b) := b.create .html node.name attrs
      { builder :=
          { b with
            tree := (b.tree.detach l.last.id).append copy.id l.last.id
            formatting := replaceFormatting node (.element copy attrs) b.formatting }
        last := copy
        kept := l.kept ++ [copy]
        innermost? := l.innermost?.or (some copy) }

end Ladder

namespace Builder

/-- An end tag without rules of its own: it closes the innermost open element of its name, unless
an element with rules of its own is open inside that. -/
def closeOther (b : Builder) (name : String) : Builder :=
  if b.inScope Element.isSpecial name then b.close name else b

/-- End formatting around a block: the elements between them, the open elements inside the block
and those around the formatting element are given, innermost first. -/
def adopt (b : Builder) (format : Element) (attrs : List Attribute) (block : Element)
    (inner between outer : List Element) : Builder :=
  let l := between.zipIdx.foldl Ladder.climb { builder := b, last := block }
  let b := { l.builder with tree := l.builder.tree.detach l.last.id }
  let b := b.put ((outer.head?.map b.placeIn).getD (.last Tree.root)) l.last.id
  let (copy, b) := b.create .html format.name attrs
  let tree := (b.tree.moveChildren block.id copy.id).append block.id copy.id
  let entry := Formatting.element copy attrs
  let formatting :=
    match l.innermost? with
    | none => replaceFormatting format entry b.formatting
    | some e =>
      (addFormattingAfter e entry b.formatting).eraseP (Formatting.isFor format)
  { b with
    tree
    formatting
    stack := inner ++ copy :: block :: l.kept ++ outer }

/-- One round of the repair; whether another may follow. -/
def adoptOnce (b : Builder) (name : String) : Builder × Bool :=
  match (reaching b.formatting).find? fun entry => entry.1.name == name with
  | none => (b.closeOther name, false)
  | some (format, attrs) =>
    if !b.stack.any (·.same format) then (b.dropFormatting format, false)
    else if !Html.inScope Element.bounds (·.same format) b.stack then (b, false)
    else
      let inside := b.stack.takeWhile fun e => !e.same format
      let outer := closeThrough (·.same format) b.stack
      let between := (inside.reverse.takeWhile fun e => !e.isSpecial).reverse
      let blocks := inside.take (inside.length - between.length)
      match blocks.getLast? with
      | none => ({ b with stack := outer }.dropFormatting format, false)
      | some block => (b.adopt format attrs block blocks.dropLast between outer, true)

/-- Rounds of the repair, as many as a number. -/
def adoptTimes : Nat → Builder → String → Builder
  | 0, b, _ => b
  | rounds + 1, b, name =>
    match b.adoptOnce name with
    | (b, true) => adoptTimes rounds b name
    | (b, false) => b

/-- The end tag of formatting. -/
def closeFormatting (b : Builder) (name : String) : Builder :=
  if b.currentIs fun e => e.named name && !b.isFormatting e then b.pop
  else adoptTimes 8 b name

/-- A link inside a link ends the outer one. -/
def closeLink (b : Builder) : Builder :=
  match (reaching b.formatting).find? fun entry => entry.1.name == "a" with
  | none => b
  | some (link, _) =>
    ((b.closeFormatting "a").dropFormatting link).restack (closeOnly link)

end Builder
end Html
end LiveMarkup
