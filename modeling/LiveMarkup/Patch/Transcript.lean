import LiveMarkup.Patch.Instruction
import LiveMarkup.Patch.Key

/-!
# Transcripts

A transcript lists a stream of instructions one to a line, indented by depth.  Keys in the form of
generated ones are masked, so that transcripts of equal markup are equal.

Main definitions:

- `Transcript.ofInstructions`: the listing of a stream.
-/

namespace LiveMarkup
namespace Transcript

/-- The mark that stands for a generated key. -/
def generatedMark : String := "<gen>"

/-- A key as it is listed. -/
def shownKey (key : String) : String :=
  if Key.isHex32 key then generatedMark else key

/-- The indentation at a depth. -/
def indent (depth : Nat) : String :=
  String.join (List.replicate depth "  ")

/-- The line of an instruction, without its indentation. -/
def body : Instruction → String
  | .openElement tag key attrs =>
    "<" ++ tag ++ " key=" ++ shownKey key ++ Instruction.attributesLine attrs ++ ">"
  | .closeElement tag => "</" ++ tag ++ ">"
  | .text content => Text.Quoted.diagnostic content

/-- The depth at which an instruction is listed, after instructions that end at a depth. -/
def lineDepth (depth : Nat) : Instruction → Nat
  | .closeElement _ => depth - 1
  | _ => depth

/-- The depth after an instruction. -/
def nextDepth (depth : Nat) : Instruction → Nat
  | .openElement _ _ _ => depth + 1
  | .closeElement _ => depth - 1
  | .text _ => depth

/-- The lines of instructions that start at a depth. -/
def lines : Nat → List Instruction → String
  | _, [] => ""
  | depth, i :: rest =>
    indent (lineDepth depth i) ++ body i ++ "\n" ++ lines (nextDepth depth i) rest

/-- The listing of a stream. -/
def ofInstructions (instructions : List Instruction) : String :=
  lines 0 instructions

end Transcript
end LiveMarkup
