import LiveMarkup.Template.Basic
import Mathlib

/-!
# Compiled texts

A text that has segments compiles under any settings, and its output is that of its segments, one
after the other.  A text whose blocks are malformed compiles only where the settings ask for it, and
then it shows nothing.

Main definitions:

- `Template.Compiled`: the templates that a text compiles to.
- `Template.parts`: the segments of a template.

Main results:

- `Template.compile_text_eq_ok_iff`: compilation of a text.
- `Program.render_map_piece`: the output of pieces outside of blocks.
- `Program.render_each`: the output of a block between other segments.
-/

namespace LiveMarkup

/-! ## Compilation -/

namespace Template

/-- The templates that a text compiles to: its segments, or nothing at all for malformed blocks. -/
inductive Compiled (config : TemplateConfig) (text : String) : Template → Prop where
  | segments {parts : List Segment} (h : Segment.ofText text = .ok parts) :
    Compiled config text { source := .text text, program := .segments parts, config }
  | empty {fault : BlockFault} {offset : Nat}
      (h : Segment.ofText text = .error (.malformedBlock fault offset))
      (hblocks : config.malformedBlocks = .empty) :
    Compiled config text { source := .text text, program := .empty, config }

/-- The segments of a template that was compiled from a text. -/
def parts (t : Template) : List Segment :=
  match t.program with
  | .segments parts => parts
  | _ => []

/-- A text that has segments compiles under any settings. -/
theorem compile_of_ofText {text : String} {parts : List Segment}
    (h : Segment.ofText text = .ok parts) (config : TemplateConfig) :
    compile config (.text text) =
      .ok { source := .text text, program := .segments parts, config } := by
  simp [compile, Program.build, h]

/-- What a text compiles to. -/
theorem compile_text_eq_ok_iff {config : TemplateConfig} {text : String} {t : Template} :
    compile config (.text text) = .ok t ↔ Compiled config text t := by
  constructor
  · intro h
    rw [compile, Program.build] at h
    cases htext : Segment.ofText text with
    | ok parts =>
      rw [htext] at h
      cases h
      exact .segments htext
    | error e =>
      rw [htext] at h
      cases e with
      | malformedBlock fault offset =>
        cases hblocks : config.malformedBlocks with
        | error => simp [hblocks] at h
        | empty =>
          rw [hblocks] at h
          cases h
          exact .empty htext hblocks
      | invalidExpression source offset => cases h
  · rintro (hparts | ⟨hfault, hblocks⟩)
    · exact compile_of_ofText hparts config
    · simp [compile, Program.build, hfault, hblocks]

end Template

/-! ## Output -/

namespace Render

variable (run : Behaviour) (helpers : Registry) (escaped : Bool) (data : Scope)

theorem join_append (chunks others : List Chunk) :
    join escaped (chunks ++ others) = join escaped chunks ++ join escaped others := by
  rw [join, List.map_append, String.join_append, join, join]

/-- The text of many runs of chunks is the texts of the runs, one after the other. -/
theorem join_flatMap {α : Type} (f : α → List Chunk) (xs : List α) :
    join escaped (xs.flatMap f) = String.join (xs.map fun x => join escaped (f x)) := by
  induction xs with
  | nil => rfl
  | cons x xs ih => rw [List.flatMap_cons, join_append, ih, List.map_cons, String.join_cons]

/-- Pieces outside of blocks show their chunks. -/
theorem segments_map_piece (body : List Piece) :
    segments run helpers data (body.map .piece) = body.map (piece run helpers { data }) := by
  rw [segments, List.flatMap_map, List.map_eq_flatMap]
  rfl

end Render

namespace Program

variable (run : Behaviour) (helpers : Registry) (escaped : Bool) (data : Scope)

/-- The output of pieces outside of blocks. -/
theorem render_map_piece (body : List Piece) :
    render run helpers escaped data (.segments (body.map .piece)) =
      Render.join escaped (body.map (Render.piece run helpers { data })) := by
  rw [render, Render.segments_map_piece]

/-- A block shows its rounds between what stands before it and what stands behind it. -/
theorem render_each (before after : List Segment) (path : List String) (body : List Piece) :
    render run helpers escaped data (.segments (before ++ .each path body :: after)) =
      render run helpers escaped data (.segments before) ++
        Render.join escaped (Render.segment run helpers data (.each path body)) ++
        render run helpers escaped data (.segments after) := by
  simp only [render, Render.segments, List.flatMap_append, List.flatMap_cons, Render.join_append,
    String.append_assoc]

end Program
end LiveMarkup
