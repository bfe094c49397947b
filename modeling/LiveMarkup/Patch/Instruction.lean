import LiveMarkup.Markup.Node
import LiveMarkup.Text.Quoted

/-!
# Instructions

A patch is a stream of instructions that open elements, close them and place texts, in document
order.  Anything that can follow such a stream is a `Surface`.

Main definitions:

- `Instruction`: one step of a patch.
- `Surface`, `Instruction.replay`, `Instruction.replayAll`: following instructions.
- `Instruction.line`: an instruction in a listing.
-/

namespace LiveMarkup

/-- One step of a patch. -/
inductive Instruction where
  | openElement (tag key : String) (attrs : List Attribute)
  | closeElement (tag : String)
  | text (content : String)
  deriving DecidableEq, Repr

/-- A state that can follow instructions. -/
class Surface (σ : Type) where
  openElement : String → String → List Attribute → σ → σ
  closeElement : String → σ → σ
  text : String → σ → σ

namespace Instruction

/-- Follow an instruction. -/
def replay {σ : Type} [Surface σ] (s : σ) : Instruction → σ
  | .openElement tag key attrs => Surface.openElement tag key attrs s
  | .closeElement tag => Surface.closeElement tag s
  | .text content => Surface.text content s

/-- Follow instructions one after the other. -/
def replayAll {σ : Type} [Surface σ] (instructions : List Instruction) (s : σ) : σ :=
  instructions.foldl replay s

/-- The key of an element that is opened. -/
def key? : Instruction → Option String
  | .openElement _ key _ => some key
  | _ => none

/-- An attribute in a listing. -/
def attributeLine (a : Attribute) : String :=
  " " ++ a.name ++ "=" ++ Text.Quoted.diagnostic a.value

/-- Attributes in a listing. -/
def attributesLine (attrs : List Attribute) : String :=
  String.join (attrs.map attributeLine)

/-- An instruction in a listing. -/
def line : Instruction → String
  | .openElement tag key attrs => "open " ++ tag ++ " key=" ++ key ++ attributesLine attrs
  | .closeElement tag => "close " ++ tag
  | .text content => "text " ++ Text.Quoted.diagnostic content

end Instruction
end LiveMarkup
