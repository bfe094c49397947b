import LiveMarkup.Template.Error
import LiveMarkup.Template.Mark

/-!
# Segments

A template text is a list of segments: literal texts, placeholders and `each` blocks.  A block
holds a list of pieces of its own, and no block stands inside another.

Segments are read from marks, left to right, once outside and once inside a block; the first mark
that does not fit decides the error.

Main definitions:

- `Piece`, `Segment`: the parts of a template.
- `Segment.outside`, `Segment.inside`: the segments of marks outside a block, and the body of a
  block with the segments after it.
- `Segment.ofText`: the segments of a template text.
-/

namespace LiveMarkup

/-- A literal text or a placeholder. -/
inductive Piece where
  | literal (text : String)
  | placeholder (e : Expr)

/-- A part of a template. -/
inductive Segment where
  | piece (p : Piece)
  | each (path : List String) (body : List Piece)

/-- The length of a text in bytes of its UTF-8 form. -/
def byteLength (cs : List Char) : Nat :=
  cs.foldl (fun length c => length + c.utf8Size) 0

namespace Segment

/-- The only block name. -/
def eachName : List Char := ['e', 'a', 'c', 'h']

mutual

/-- The segments of marks outside a block, the first of which starts at an offset. -/
def outside (offset : Nat) : List Mark → Except TemplateError (List Segment)
  | [] => .ok []
  | .plain run :: rest =>
    match outside (offset + byteLength run) rest with
    | .ok segments => .ok (.piece (.literal (String.ofList run)) :: segments)
    | .error e => .error e
  | .placeholder source :: rest =>
    match Expr.read? source with
    | none => .error (.invalidExpression (String.ofList source) offset)
    | some e =>
      match outside (offset + byteLength (Mark.placeholder source).chars) rest with
      | .ok segments => .ok (.piece (.placeholder e) :: segments)
      | .error e => .error e
  | .tag inner (.opening name path) :: rest =>
    if name = eachName then
      match inside offset (offset + byteLength (Mark.tag inner (.opening name path)).chars) rest with
      | .ok (body, segments) => .ok (.each path body :: segments)
      | .error e => .error e
    else .error (.malformedBlock (.unknownHelper (String.ofList name)) offset)
  | .tag _ (.closing name) :: _ =>
    .error (.malformedBlock (.strayClose (String.ofList name)) offset)

/-- The body of a block that was opened at `start`, and the segments after the block. -/
def inside (start offset : Nat) : List Mark → Except TemplateError (List Piece × List Segment)
  | [] => .error (.malformedBlock (.unclosed (String.ofList eachName)) start)
  | .plain run :: rest =>
    match inside start (offset + byteLength run) rest with
    | .ok (body, segments) => .ok (.literal (String.ofList run) :: body, segments)
    | .error e => .error e
  | .placeholder source :: rest =>
    match Expr.read? source with
    | none => .error (.invalidExpression (String.ofList source) offset)
    | some e =>
      match inside start (offset + byteLength (Mark.placeholder source).chars) rest with
      | .ok (body, segments) => .ok (.placeholder e :: body, segments)
      | .error e => .error e
  | .tag _ (.opening name _) :: _ =>
    .error (.malformedBlock (.nested (String.ofList eachName) (String.ofList name)) offset)
  | .tag inner (.closing name) :: rest =>
    if name = eachName then
      match outside (offset + byteLength (Mark.tag inner (.closing name)).chars) rest with
      | .ok segments => .ok ([], segments)
      | .error e => .error e
    else
      .error (.malformedBlock
        (.mismatched (String.ofList eachName) (String.ofList name)) offset)

end

/-- The segments of a template text. -/
def ofText (text : String) : Except TemplateError (List Segment) :=
  outside 0 (Mark.ofChars text.toList)

end Segment
end LiveMarkup
