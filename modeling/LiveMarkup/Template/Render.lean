import LiveMarkup.Template.Registry
import LiveMarkup.Template.Segment
import LiveMarkup.Value.Text

/-!
# Rendering

Segments are rendered against a scope.  A name means a registered helper first; inside a block
then the current item and its position, then the entries of the item if it is a map; and last the
entry of the scope.  What cannot be resolved shows nothing, so rendering never fails.

The output is a list of chunks, which remember whether they come from the template or from a
value; only the latter are escaped.

Main definitions:

- `Frame`: what names mean, apart from helpers.
- `Render.resolve?`, `Render.resolvePath?`: the meaning of a name and of a path.
- `Render.eval`: the value of an expression.
- `Render.segments`: the chunks of segments.
- `Chunk.text`: the text of a chunk.
-/

namespace LiveMarkup

/-! ## Chunks -/

/-- A stretch of output. -/
inductive Chunk where
  | literal (text : String)
  | value (text : String)
  deriving DecidableEq, Repr

namespace Chunk

/-- The reference that stands for a character which markup gives a meaning of its own. -/
def escapeChar (c : Char) : List Char :=
  match c with
  | '&' => ['&', 'a', 'm', 'p', ';']
  | '<' => ['&', 'l', 't', ';']
  | '>' => ['&', 'g', 't', ';']
  | '"' => ['&', 'q', 'u', 'o', 't', ';']
  | '\'' => ['&', '#', '3', '9', ';']
  | c => [c]

/-- A text with references for the characters that markup gives a meaning of its own. -/
def escape (s : String) : String :=
  String.ofList (s.toList.flatMap escapeChar)

/-- The text of a chunk; values are escaped on demand. -/
def text (escaped : Bool) : Chunk → String
  | .literal s => s
  | .value s => if escaped then escape s else s

end Chunk

/-! ## Names -/

/-- What names mean, apart from helpers: the scope, and inside a block the item of the current
round with its position. -/
structure Frame where
  data : Scope
  round : Option (Value × Nat) := none

namespace Frame

/-- The value of a name that is not a registered helper. -/
def lookup? (frame : Frame) (name : String) : Option Value :=
  match frame.round with
  | none => frame.data.lookup name
  | some (item, index) =>
    if name = "this" then some item
    else if name = "@index" then some (.ofSize index)
    else (item.entries?.bind fun entries => entries.lookup name).or (frame.data.lookup name)

end Frame

namespace Render

/-- The value of a name: a registered helper if there is one, else what the frame says. -/
def resolve? (helpers : Registry) (frame : Frame) (name : String) : Option Value :=
  match helpers.get? name with
  | some h => some (.helper h)
  | none => frame.lookup? name

/-- The value of a path: its first name, then one member after the other. -/
def resolvePath? (helpers : Registry) (frame : Frame) : List String → Option Value
  | [] => none
  | first :: rest => rest.foldl (fun v segment => v.bind (·.member? segment))
      (resolve? helpers frame first)

/-! ## Expressions -/

/-- The value of an argument. -/
def operandValue (helpers : Registry) (frame : Frame) : Operand → Value
  | .path segments => (resolvePath? helpers frame segments).getD .null
  | .literal v => v

/-- The value of an expression.  Calling what is not a helper gives null. -/
def eval (run : Behaviour) (helpers : Registry) (frame : Frame) : Expr → Value
  | .operand o => operandValue helpers frame o
  | .call name args =>
    match (resolve? helpers frame name).bind Value.helper? with
    | some h => run h (args.map (operandValue helpers frame))
    | none => .null

/-- The value that a placeholder shows: a helper is called without arguments, once. -/
def shown (run : Behaviour) (v : Value) : Value :=
  match v with
  | .helper h => run h []
  | v => v

/-! ## Segments -/

/-- The chunk of a piece. -/
def piece (run : Behaviour) (helpers : Registry) (frame : Frame) : Piece → Chunk
  | .literal text => .literal text
  | .placeholder e => .value (shown run (eval run helpers frame e)).text

/-- The chunks of a block's body, round after round. -/
def rounds (run : Behaviour) (helpers : Registry) (data : Scope) (body : List Piece)
    (items : List Value) : List Chunk :=
  items.zipIdx.flatMap fun (item, index) =>
    body.map (piece run helpers { data, round := some (item, index) })

/-- The chunks of a segment. -/
def segment (run : Behaviour) (helpers : Registry) (data : Scope) : Segment → List Chunk
  | .piece p => [piece run helpers { data } p]
  | .each path body =>
    let items := ((resolvePath? helpers { data } path).getD .null).items
    rounds run helpers data body items

/-- The chunks of segments, in order. -/
def segments (run : Behaviour) (helpers : Registry) (data : Scope) (parts : List Segment) :
    List Chunk :=
  parts.flatMap (segment run helpers data)

/-- The text of chunks, one after the other. -/
def join (escaped : Bool) (chunks : List Chunk) : String :=
  String.join (chunks.map (Chunk.text escaped))

end Render
end LiveMarkup
