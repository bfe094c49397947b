import LiveMarkup.Patch.Instruction

/-!
# The recorder

A recorder follows instructions by writing them down.  While it does, it says so.

Main definitions:

- `Recorded`, `Recorder`: what is written down, and the log with its flag.
- `Recorder.patch`: lets a body follow instructions against a label.
-/

namespace LiveMarkup

/-- What a recorder writes down. -/
inductive Recorded where
  | beginPatch (target : String)
  | openElement (tag key : String) (attrs : List Attribute)
  | closeElement (tag : String)
  | text (content : String)
  | endPatch
  deriving DecidableEq, Repr

/-- A log, and whether a patch is being recorded. -/
structure Recorder where
  log : List Recorded := []
  active : Bool := false
  deriving DecidableEq, Repr

namespace Recorder

/-- Write down one more line. -/
def write (r : Recorder) (line : Recorded) : Recorder :=
  { r with log := r.log ++ [line] }

instance : Surface Recorder where
  openElement tag key attrs r := r.write (.openElement tag key attrs)
  closeElement tag r := r.write (.closeElement tag)
  text content r := r.write (.text content)

/-- Run a body between the first and the last line of a record. -/
def patch {α : Type} (r : Recorder) (target : String) (body : Recorder → α × Recorder) :
    α × Recorder :=
  let (a, r) := body { r.write (.beginPatch target) with active := true }
  (a, { r.write .endPatch with active := false })

end Recorder
end LiveMarkup
