import LiveMarkup.Dom.Walk
import LiveMarkup.Patch.Instruction

/-!
# What a stream of instructions denotes

A stream is balanced when every element that is closed is the innermost open one and none is left
open.  Read with a stack of open elements, a balanced stream denotes a forest.

Main definitions:

- `Instruction.openTags`, `Instruction.Balanced`: the tags left open, and balanced streams.
- `Instruction.FirstFault`: where a stream that is read comes to its first fault.
- `Progress`: the open elements and the trees done so far.
- `Instruction.forest?`: the forest that a stream denotes.

Main results:

- `Instruction.openTags_eq_none_iff`: what cannot be read has a first close that is at fault.
- `Instruction.balanced_iff`: the balanced streams are those that denote a forest.
-/

namespace LiveMarkup

/-! ## Balanced streams -/

namespace Instruction

/-- The tags of the elements that a stream leaves open, the innermost first, when some are open
before; none if it closes an element that is not the innermost open one. -/
def openTags : List String → List Instruction → Option (List String)
  | opened, [] => some opened
  | opened, .openElement tag _ _ :: rest => openTags (tag :: opened) rest
  | opened, .text _ :: rest => openTags opened rest
  | [], .closeElement _ :: _ => none
  | innermost :: opened, .closeElement tag :: rest =>
    if tag = innermost then openTags opened rest else none

/-- Every close names the tag of the innermost open element, and no element is left open. -/
def Balanced (stream : List Instruction) : Prop :=
  openTags [] stream = some []

instance (stream : List Instruction) : Decidable (Balanced stream) :=
  inferInstanceAs (Decidable (openTags [] stream = some []))

/-- A stream is read in two parts. -/
theorem openTags_append (opened : List String) (first second : List Instruction) :
    openTags opened (first ++ second) =
      (openTags opened first).bind fun tags => openTags tags second := by
  fun_induction openTags opened first with
  | case1 => rfl
  | case2 opened tag key attrs rest ih => simpa [openTags] using ih
  | case3 opened content rest ih => simpa [openTags] using ih
  | case4 => rfl
  | case5 opened tag rest ih => simpa [openTags] using ih
  | case6 innermost opened tag rest htag => simp [openTags, htag]

/-- A close is the first fault after some instructions: these can be read, and the close does not
name the innermost element that they leave open, if they leave any open. -/
def FirstFault (before : List Instruction) (tag : String) : Prop :=
  ∃ tags, openTags [] before = some tags ∧ tags.head? ≠ some tag

/-- What cannot be read has a first close that is at fault. -/
theorem openTags_eq_none_iff {opened : List String} {stream : List Instruction} :
    openTags opened stream = none ↔
      ∃ before tag after, stream = before ++ .closeElement tag :: after ∧
        ∃ tags, openTags opened before = some tags ∧ tags.head? ≠ some tag := by
  constructor
  · intro hnone
    fun_induction openTags opened stream with
    | case1 => cases hnone
    | case2 opened tag key attrs rest ih =>
      obtain ⟨before, close, after, rfl, hfault⟩ := ih hnone
      exact ⟨.openElement tag key attrs :: before, close, after, rfl, hfault⟩
    | case3 opened content rest ih =>
      obtain ⟨before, close, after, rfl, hfault⟩ := ih hnone
      exact ⟨.text content :: before, close, after, rfl, hfault⟩
    | case4 tag rest => exact ⟨[], tag, rest, rfl, [], rfl, by simp⟩
    | case5 opened tag rest ih =>
      obtain ⟨before, close, after, rfl, tags, htags, hfault⟩ := ih hnone
      exact ⟨.closeElement tag :: before, close, after, rfl, tags, by simpa [openTags], hfault⟩
    | case6 innermost opened tag rest htag =>
      exact ⟨[], tag, rest, rfl, innermost :: opened, rfl, by simpa using Ne.symm htag⟩
  · rintro ⟨before, tag, after, rfl, tags, htags, hfault⟩
    rw [openTags_append, htags, Option.bind_some]
    cases tags with
    | nil => rfl
    | cons innermost outer =>
      have htag : tag ≠ innermost := fun heq => hfault (by rw [heq]; rfl)
      simp [openTags, htag]

end Instruction

/-! ## Trees in the making -/

/-- An open element, and the trees before it under the same parent. -/
structure OpenElement where
  tag : String
  key : String
  attrs : List Attribute
  before : List LiveNode

/-- The open elements from the innermost to the outermost, and the trees done so far in the
innermost. -/
structure Progress where
  opened : List OpenElement := []
  done : List LiveNode := []

namespace Progress

/-- Read one instruction; a close must name the innermost open element. -/
def step (p : Progress) : Instruction → Option Progress
  | .openElement tag key attrs => some ⟨⟨tag, key, attrs, p.done⟩ :: p.opened, []⟩
  | .text content => some ⟨p.opened, p.done ++ [.text content]⟩
  | .closeElement tag =>
    match p.opened with
    | [] => none
    | o :: outer =>
      if tag = o.tag then some ⟨outer, o.before ++ [.element o.tag (some o.key) o.attrs p.done]⟩
      else none

/-- Read instructions one after the other. -/
def run (p : Progress) : List Instruction → Option Progress
  | [] => some p
  | i :: rest => (p.step i).bind fun q => q.run rest

@[simp]
theorem run_nil (p : Progress) : p.run [] = some p :=
  rfl

theorem run_cons (p : Progress) (i : Instruction) (rest : List Instruction) :
    p.run (i :: rest) = (p.step i).bind fun q => q.run rest :=
  rfl

theorem run_append (p : Progress) (first second : List Instruction) :
    p.run (first ++ second) = (p.run first).bind fun q => q.run second := by
  induction first generalizing p with
  | nil => rfl
  | cons i rest ih =>
    rw [List.cons_append, run_cons, run_cons, Option.bind_assoc]
    congr 1
    funext q
    exact ih q

/-- An element whose content is read as trees is one more tree. -/
theorem run_enclosed {inner : List Instruction} {below : List LiveNode}
    (hinner : ∀ p : Progress, p.run inner = some ⟨p.opened, p.done ++ below⟩) (p : Progress)
    (tag key : String) (attrs : List Attribute) (rest : List Instruction) :
    p.run (.openElement tag key attrs :: (inner ++ .closeElement tag :: rest)) =
      run ⟨p.opened, p.done ++ [.element tag (some key) attrs below]⟩ rest := by
  rw [run_cons, step, Option.bind_some, run_append, hinner, Option.bind_some, run_cons]
  simp only [step, if_pos, Option.bind_some, List.nil_append]

/-- Reading a stream keeps track of the open tags. -/
theorem map_opened_run (p : Progress) (stream : List Instruction) :
    (p.run stream).map (fun q => q.opened.map (·.tag)) =
      Instruction.openTags (p.opened.map (·.tag)) stream := by
  induction stream generalizing p with
  | nil => rfl
  | cons i rest ih =>
    rw [run_cons]
    cases i with
    | openElement tag key attrs => exact ih _
    | text content => exact ih _
    | closeElement tag =>
      obtain ⟨opened, done⟩ := p
      cases opened with
      | nil => rfl
      | cons o outer =>
        by_cases htag : tag = o.tag
        · simp only [step, if_pos htag, List.map_cons, Instruction.openTags]
          exact ih _
        · simp only [step, if_neg htag, List.map_cons, Instruction.openTags]
          rfl

end Progress

namespace Instruction

/-- The forest that a stream denotes, if it is balanced. -/
def forest? (stream : List Instruction) : Option (List LiveNode) :=
  match ({} : Progress).run stream with
  | some ⟨[], done⟩ => some done
  | _ => none

/-- A stream denotes a forest exactly if it runs through and leaves no element open. -/
theorem forest?_eq_some_iff {stream : List Instruction} {forest : List LiveNode} :
    forest? stream = some forest ↔ ({} : Progress).run stream = some ⟨[], forest⟩ := by
  unfold forest?
  split
  · next done hrun => simp [hrun]
  · next hother =>
    constructor
    · intro h
      cases h
    · intro h
      exact absurd h (hother forest)

/-- The balanced streams are those that denote a forest. -/
theorem balanced_iff {stream : List Instruction} :
    Balanced stream ↔ ∃ forest, forest? stream = some forest := by
  have hmap : openTags [] stream = _ := (Progress.map_opened_run {} stream).symm
  rw [Balanced, hmap]
  simp only [forest?_eq_some_iff, Option.map_eq_some_iff, List.map_eq_nil_iff]
  constructor
  · rintro ⟨⟨opened, done⟩, hrun, rfl⟩
    exact ⟨done, hrun⟩
  · rintro ⟨forest, hrun⟩
    exact ⟨⟨[], forest⟩, hrun, rfl⟩

end Instruction
end LiveMarkup
