import LiveMarkup.Proofs.Dom.Reachable
import LiveMarkup.Proofs.Patch.Denotation

/-!
# Streams and trees

A stream that denotes a forest is the forest written down in document order: a node before what lies
below it, and the close of an element right after.  So nothing in the stream is lost when it is
read, and the stream of a fragment is the fragment, but for what has no place in a patch.

Main definitions:

- `LiveNode.instructions`, `LiveNode.instructionsAll`: trees written down.
- `Progress.written`: the instructions that were read so far.

Main results:

- `Progress.written_run`: what is read is written down as it was.
- `Instruction.instructionsAll_of_forest?`: a stream is its forest written down.
- `PatchCompiler.stream_is_fragment`: the stream of a source is its fragment, and follows without a
  fault below every live element.
-/

namespace LiveMarkup

namespace LiveNode

mutual

/-- A tree written down.  Patches place no comments, and in what they denote every element has a
key. -/
def instructions : LiveNode → List Instruction
  | .element tag key attrs children =>
    .openElement tag (key.getD "") attrs :: (instructionsAll children ++ [.closeElement tag])
  | .text content => [.text content]
  | .comment _ => []

/-- Trees written down one after the other. -/
def instructionsAll : List LiveNode → List Instruction
  | [] => []
  | n :: rest => instructions n ++ instructionsAll rest

end

theorem instructionsAll_append (first second : List LiveNode) :
    instructionsAll (first ++ second) = instructionsAll first ++ instructionsAll second := by
  induction first with
  | nil => rfl
  | cons n rest ih => rw [List.cons_append, instructionsAll, instructionsAll, ih, List.append_assoc]

/-- One more tree is written down behind the others. -/
theorem instructionsAll_concat (before : List LiveNode) (n : LiveNode) :
    instructionsAll (before ++ [n]) = instructionsAll before ++ instructions n := by
  rw [instructionsAll_append, instructionsAll, instructionsAll, List.append_nil]

end LiveNode

/-! ## What was read -/

namespace Progress

open LiveNode

/-- The instructions that open elements and what is done in them, given the open elements and the
trees done in the innermost. -/
def writtenUnder : List OpenElement → List LiveNode → List Instruction
  | [], done => instructionsAll done
  | o :: outer, done =>
    writtenUnder outer o.before ++ .openElement o.tag o.key o.attrs :: instructionsAll done

/-- The instructions that were read so far. -/
def written (p : Progress) : List Instruction :=
  writtenUnder p.opened p.done

/-- One more tree is written down behind what was read. -/
theorem writtenUnder_concat (opened : List OpenElement) (done : List LiveNode) (n : LiveNode) :
    writtenUnder opened (done ++ [n]) = writtenUnder opened done ++ n.instructions := by
  cases opened with
  | nil => exact instructionsAll_concat done n
  | cons o outer =>
    rw [writtenUnder, writtenUnder, instructionsAll_concat, List.append_assoc, List.cons_append]

/-- An instruction that is read is written down behind those from before. -/
theorem written_step {p q : Progress} {i : Instruction} (h : p.step i = some q) :
    q.written = p.written ++ [i] := by
  obtain ⟨opened, done⟩ := p
  cases i with
  | openElement tag key attrs =>
    cases h
    rfl
  | text content =>
    cases h
    exact writtenUnder_concat opened done (.text content)
  | closeElement tag =>
    cases opened with
    | nil => cases h
    | cons o outer =>
      simp only [step] at h
      split at h
      · next htag =>
        cases h
        simp only [written, writtenUnder_concat]
        rw [instructions, Option.getD_some, writtenUnder, htag, List.append_assoc,
          List.cons_append]
      · cases h

/-- What is read is written down as it was. -/
theorem written_run {p q : Progress} {stream : List Instruction} (h : p.run stream = some q) :
    q.written = p.written ++ stream := by
  induction stream generalizing p with
  | nil =>
    cases h
    rw [List.append_nil]
  | cons i rest ih =>
    rw [run_cons, Option.bind_eq_some_iff] at h
    obtain ⟨next, hstep, hrest⟩ := h
    rw [ih hrest, written_step hstep, List.append_assoc, List.singleton_append]

end Progress

/-- A stream is the forest that it denotes, written down. -/
theorem Instruction.instructionsAll_of_forest? {stream : List Instruction}
    {forest : List LiveNode} (h : forest? stream = some forest) :
    LiveNode.instructionsAll forest = stream := by
  have hwritten := Progress.written_run (forest?_eq_some_iff.mp h)
  exact hwritten

/-! ## The stream of a source -/

namespace PatchCompiler

/-- The instructions that are compiled from a source denote a forest, so they can be read to the end
with every close naming the innermost open element.  They are that forest written down in document
order, and without its keys the forest is the fragment of the source, but for texts at the top,
empty texts and, if they are dropped, attributes with an empty value.  A patch of them succeeds
below every live element, as long as the tree has not outgrown its handles. -/
theorem stream_is_fragment {c : PatchCompiler} {source : String} {f : Fragment}
    {instructions : List Instruction} (hparse : c.parser source = .ok f)
    (hcompile : (c.compileStack source).1 = .ok instructions) :
    Instruction.Balanced instructions ∧
      (∃ forest, Instruction.forest? instructions = some forest ∧
        instructions = LiveNode.instructionsAll forest ∧
        LiveNode.toNodes forest =
          Node.shown c.config.dropEmptyAttributes true (f.forest Fragment.root)) ∧
      ∀ (serial : Nat) (d : Dom) (target : NodeId), d.Reachable → d.isElement target = true →
        let (result, d') := Patch.apply { serial, instructions } d target
        d'.slots.size ≤ Dom.maxSlots → result = .ok () := by
  obtain ⟨f', drafts, hparse', hdraft, rfl⟩ := compileStack_eq_ok hcompile
  rw [hparse] at hparse'
  cases hparse'
  obtain ⟨forest, hforest, hnodes⟩ := Draft.forest?_assign c.supply c.drawn hdraft
  refine ⟨Instruction.balanced_iff.mpr ⟨forest, hforest⟩, ⟨forest, hforest, ?_, hnodes⟩, ?_⟩
  · exact (Instruction.instructionsAll_of_forest? hforest).symm
  · intro serial d target hreachable htarget hsize
    have hwf := hreachable.wellFormed ((Dom.slots_size_le_patch d target _).trans hsize)
    exact (hwf.forest_patch htarget hforest hsize).1

/-- A fragment that was appended node by node, with texts at the top, an empty text, two texts that
join and a bare attribute; its patch is followed below an element with a comment and a leftover of
another patch. -/
theorem stream_is_fragment_of_appended :
    let f := [fun f : Fragment => f.appendText 0 "lead",
      fun f => f.appendElement 0 "div" [⟨"hidden", ""⟩, ⟨"id", "a"⟩], fun f => f.appendText 2 "",
      fun f => f.appendElement 2 "p" [], fun f => f.appendText 4 "x", fun f => f.appendText 4 "y",
      fun f => f.appendElement 2 "br" [], fun f => f.appendText 0 "tail"].foldl
        (fun f append => (append f).1) {}
    let c := PatchCompiler.new (fun _ => .ok f) {}
    let instructions := [Instruction.openElement "div" "a" [⟨"id", "a"⟩],
      .openElement "p" (Key.generated 0) [], .text "xy", .closeElement "p",
      .openElement "br" (Key.generated 1) [], .closeElement "br", .closeElement "div"]
    let forest := [LiveNode.element "div" (some "a") [⟨"id", "a"⟩]
      [.element "p" (some (Key.generated 0)) [] [.text "xy"],
        .element "br" (some (Key.generated 1)) [] []]]
    let d := [Dom.Operation.createElement "div",
      .parseInto (fun _ => .ok (Fragment.ofNodes [.comment "c", .element "div" [⟨"id", "a"⟩]
        [.text "old"]])) ⟨0, 0⟩ "",
      .patch ⟨0, 0⟩ [.text "t", .openElement "p" "left" [], .closeElement "b"]].foldl
        Dom.perform {}
    (c.compileStack "").1 = .ok instructions ∧ Instruction.Balanced instructions ∧
      Instruction.forest? instructions = some forest ∧
      LiveNode.toNodes forest = Node.shown true true (f.forest Fragment.root) ∧
      (Patch.apply ⟨0, instructions⟩ d ⟨0, 0⟩).1 = .ok () := by
  intro f c instructions forest d
  have hparse : c.parser "" = .ok f := rfl
  have hcompile : (c.compileStack "").1 = .ok instructions := by decide +kernel
  obtain ⟨hbalanced, ⟨forest', hforest, -, hnodes⟩, happly⟩ :=
    stream_is_fragment hparse hcompile
  have hread : Instruction.forest? instructions = some forest := by rfl
  rw [hread] at hforest
  cases hforest
  have hsize : (Patch.apply ⟨0, instructions⟩ d ⟨0, 0⟩).2.slots.size ≤ Dom.maxSlots := by
    decide +kernel
  exact ⟨hcompile, hbalanced, hread, hnodes,
    happly 0 d ⟨0, 0⟩ (Dom.Reachable.empty.foldl_perform _) (by decide +kernel) hsize⟩

end PatchCompiler
end LiveMarkup
