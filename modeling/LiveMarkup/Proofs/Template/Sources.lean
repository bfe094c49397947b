import LiveMarkup.Template.Mark
import Mathlib

/-!
# Where the source of a placeholder ends

The end of a placeholder is looked for without reading the expression in it: the scan minds quotes
and backslashes and nothing else.  The reader of expressions has its own rule for strings.  The two
agree on every text that is read as an expression: the scan goes right over all that the reader
takes, one part after the other, and so it stops at the brace behind the expression, whatever text
follows.

Main definitions:

- `Mark.Passed`: a text that the scan for the closing brace goes over.
- `Expr.Takes`: a reader leaves the end of a text, and what it took is passed.

Main results:

- `Expr.takes_of_expr?`: what the reader of expressions takes is passed.
- `Mark.placeholder?_of_read?`: a source that is read as an expression is found again.
-/

namespace LiveMarkup

/-! ## Passed texts -/

namespace Mark

/-- A text that the scan for a closing brace goes over, from outside of quotes to outside of
quotes, whatever follows. -/
def Passed (front : List Char) : Prop :=
  ∀ rest, closeOutsideQuotes? none (front ++ rest) =
    (closeOutsideQuotes? none rest).map fun r => (front ++ r.1, r.2)

/-- A character that the scan does not mind outside of quotes. -/
def IsOrdinary (c : Char) : Prop :=
  c ≠ '\x7d' ∧ c ≠ '\'' ∧ c ≠ '"'

instance (c : Char) : Decidable (IsOrdinary c) :=
  inferInstanceAs (Decidable (_ ∧ _))

/-- Nothing is passed at once. -/
theorem Passed.nil : Passed [] := by
  intro rest
  simp

/-- Two texts that are passed are passed one after the other. -/
theorem Passed.append {front next : List Char} (hfront : Passed front) (hnext : Passed next) :
    Passed (front ++ next) := by
  intro rest
  rw [List.append_assoc, hfront, hnext, Option.map_map]
  simp [Function.comp_def]

/-- An ordinary character before a text that is passed is passed with it. -/
theorem Passed.cons {c : Char} {front : List Char} (hc : IsOrdinary c) (hfront : Passed front) :
    Passed (c :: front) := by
  obtain ⟨hbrace, hsingle, hdouble⟩ := hc
  intro rest
  rw [List.cons_append, closeOutsideQuotes?, if_neg hbrace, if_neg (by simp [hsingle, hdouble]),
    hfront, Option.map_map]
  rfl

/-- Ordinary characters are passed. -/
theorem passed_of_forall {front : List Char} (h : ∀ c ∈ front, IsOrdinary c) : Passed front := by
  induction front with
  | nil => exact .nil
  | cons c front ih =>
    rw [List.forall_mem_cons] at h
    exact .cons h.1 (ih h.2)

/-- A string with its closing quote ends inside the quotes where the reader says that it does: both
skip what a backslash hides. -/
theorem exists_of_quoted? {quote : Char} {cs body rest : List Char}
    (hquote : quote = '\'' ∨ quote = '"') (h : Expr.quoted? quote cs = some (body, rest)) :
    ∃ front, cs = front ++ rest ∧ ∀ rest', closeOutsideQuotes? (some quote) (front ++ rest') =
      (closeOutsideQuotes? none rest').map fun r => (front ++ r.1, r.2) := by
  have hslash : quote ≠ '\\' := by
    rintro rfl
    simp at hquote
  fun_induction Expr.quoted? quote cs generalizing body rest with
  | case1 => cases h
  | case2 tail =>
    cases h
    refine ⟨[quote], rfl, fun rest' => ?_⟩
    rw [List.singleton_append, closeOutsideQuotes?.eq_def]
    simp [hslash]
  | case3 => cases h
  | case4 e tail hne ih =>
    obtain ⟨⟨body', rest''⟩, hbody, heq⟩ := Option.map_eq_some_iff.mp h
    cases heq
    obtain ⟨front, rfl, hfront⟩ := ih hbody
    refine ⟨'\\' :: e :: front, rfl, fun rest' => ?_⟩
    simp [closeOutsideQuotes?, hfront, Function.comp_def]
  | case5 c tail hne hc ih =>
    obtain ⟨⟨body', rest''⟩, hbody, heq⟩ := Option.map_eq_some_iff.mp h
    cases heq
    obtain ⟨front, rfl, hfront⟩ := ih hbody
    refine ⟨c :: front, rfl, fun rest' => ?_⟩
    rw [List.cons_append, closeOutsideQuotes?.eq_def]
    simp [hfront, hne, hc, Function.comp_def]

end Mark

/-! ## What the readers take -/

namespace Expr

/-- A reader leaves the end of a text, and what it took before is passed. -/
def Takes (cs rest : List Char) : Prop :=
  ∃ front, cs = front ++ rest ∧ Mark.Passed front

namespace Takes

/-- What two readers take, one after the other, is passed. -/
theorem trans {cs middle rest : List Char} (h : Takes cs middle) (h' : Takes middle rest) :
    Takes cs rest := by
  obtain ⟨front, rfl, hfront⟩ := h
  obtain ⟨next, rfl, hnext⟩ := h'
  exact ⟨front ++ next, by rw [List.append_assoc], hfront.append hnext⟩

/-- A reader may take one ordinary character. -/
theorem cons {c : Char} (hc : Mark.IsOrdinary c) (cs : List Char) : Takes (c :: cs) cs :=
  ⟨[c], rfl, .cons hc .nil⟩

/-- A run of characters none of which matters to the scan. -/
theorem dropWhile {p : Char → Bool} (hp : ∀ c, p c = true → Mark.IsOrdinary c) (cs : List Char) :
    Takes cs (cs.dropWhile p) := by
  refine ⟨cs.takeWhile p, List.takeWhile_append_dropWhile.symm, Mark.passed_of_forall ?_⟩
  intro c hc
  exact hp c (List.mem_takeWhile_imp hc)

end Takes

/-- No blank is a quote or a closing brace. -/
theorem isOrdinary_of_isBlank {c : Char} (h : Text.isBlank c = true) : Mark.IsOrdinary c := by
  refine ⟨?_, ?_, ?_⟩ <;> rintro rfl <;> revert h <;> decide

/-- No character of a path is a quote or a closing brace. -/
theorem isOrdinary_of_isPathChar {c : Char} (h : isPathChar c = true) : Mark.IsOrdinary c := by
  refine ⟨?_, ?_, ?_⟩ <;> rintro rfl <;> revert h <;> decide

/-- No character of a number is a quote or a closing brace. -/
theorem isOrdinary_of_isNumberChar {c : Char} (h : isNumberChar c = true) :
    Mark.IsOrdinary c := by
  refine ⟨?_, ?_, ?_⟩ <;> rintro rfl <;> revert h <;> decide

/-- What is skipped as blank is passed. -/
theorem takes_trimLeft (cs : List Char) : Takes cs (Text.trimLeft cs) :=
  .dropWhile (fun _ => isOrdinary_of_isBlank) cs

/-- What the reader of a path takes is passed. -/
theorem takes_of_pathHere? {cs rest : List Char} {segments : List String}
    (h : pathHere? cs = some (segments, rest)) : Takes cs rest := by
  obtain ⟨found, -, heq⟩ := Option.map_eq_some_iff.mp h
  cases heq
  exact (Takes.dropWhile (fun _ => isOrdinary_of_isPathChar) cs).trans (takes_trimLeft _)

/-- What the reader of a number takes is passed. -/
theorem takes_of_number? {cs rest : List Char} {v : Value} (h : number? cs = some (v, rest)) :
    Takes cs rest := by
  obtain ⟨found, -, heq⟩ := Option.map_eq_some_iff.mp h
  cases heq
  have hdigits (cs : List Char) : Takes cs (cs.dropWhile isNumberChar) :=
    .dropWhile (fun _ => isOrdinary_of_isNumberChar) cs
  unfold numberSpan
  split
  · next tail => exact (Takes.cons (by decide) tail).trans (hdigits tail)
  · exact hdigits cs

/-- What the reader of a literal takes is passed, its quotes included. -/
theorem takes_of_literal? {cs rest : List Char} {v : Value} (h : literal? cs = some (v, rest)) :
    Takes cs rest := by
  unfold literal? at h
  split at h
  · cases h
  · next c tail =>
    split at h
    · next hquote =>
      obtain ⟨⟨body, rest'⟩, hbody, heq⟩ := Option.map_eq_some_iff.mp h
      cases heq
      have hc : c = '\'' ∨ c = '"' := by
        simpa [or_comm] using hquote
      obtain ⟨front, rfl, hfront⟩ := Mark.exists_of_quoted? hc hbody
      refine ⟨c :: front, rfl, fun rest' => ?_⟩
      have hbrace : c ≠ '\x7d' := by
        rintro rfl
        simp at hc
      rw [List.cons_append, Mark.closeOutsideQuotes?, if_neg hbrace, if_pos hc, hfront,
        Option.map_map]
      rfl
    · split at h
      · exact takes_of_number? h
      · cases h

/-- What the reader of an operand takes is passed. -/
theorem takes_of_operand? {cs rest : List Char} {o : Operand}
    (h : operand? cs = some (o, rest)) : Takes cs rest := by
  unfold operand? at h
  split at h
  · cases h
  · next c tail =>
    split at h
    · split at h
      · cases h
      · next segments rest' hpath =>
        split at h
        · cases h
        · cases h
          exact takes_of_pathHere? hpath
    · obtain ⟨⟨v, rest'⟩, hliteral, heq⟩ := Option.map_eq_some_iff.mp h
      cases heq
      exact takes_of_literal? hliteral

/-- The arguments of a call are taken together with their commas and the closing parenthesis. -/
theorem takes_of_operands? {cs rest : List Char} {operands : List Operand}
    (h : operands? cs = some (operands, rest)) : Takes cs rest := by
  fun_induction operands? cs generalizing operands rest with
  | case1 => cases h
  | case2 cs o after hoperand more hsep ih =>
    obtain ⟨⟨others, rest'⟩, hmore, heq⟩ := Option.map_eq_some_iff.mp h
    cases heq
    have hafter := takes_trimLeft after
    rw [hsep] at hafter
    exact ((((takes_trimLeft cs).trans (takes_of_operand? hoperand)).trans hafter).trans
      (.cons (by decide) more)).trans (ih hmore)
  | case3 cs o after hoperand more hsep =>
    cases h
    have hafter := takes_trimLeft after
    rw [hsep] at hafter
    exact (((takes_trimLeft cs).trans (takes_of_operand? hoperand)).trans hafter).trans
      (.cons (by decide) more)
  | case4 => cases h

/-- What the reader of arguments takes is passed, up to the parenthesis that ends them. -/
theorem takes_of_args? {cs rest : List Char} {args : List Operand}
    (h : args? cs = some (args, rest)) : Takes cs rest := by
  have hblanks := takes_trimLeft cs
  unfold args? at h
  split at h
  · next more htrim =>
    cases h
    rw [htrim] at hblanks
    exact hblanks.trans (.cons (by decide) rest)
  · exact hblanks.trans (takes_of_operands? h)

/-- What the reader of expressions takes is passed by the scan for the closing brace. -/
theorem takes_of_expr? {cs rest : List Char} {e : Expr} (h : expr? cs = some (e, rest)) :
    Takes cs rest := by
  unfold expr? at h
  split at h
  · cases h
  · next c tail =>
    split at h
    · split at h
      · cases h
      · next segments more hpath =>
        split at h
        · next name =>
          obtain ⟨⟨args, rest'⟩, hargs, heq⟩ := Option.map_eq_some_iff.mp h
          cases heq
          exact ((takes_of_pathHere? hpath).trans (.cons (by decide) more)).trans
            (takes_of_args? hargs)
        · cases h
      · next segments rest' _ hpath =>
        cases h
        exact takes_of_pathHere? hpath
    · obtain ⟨⟨v, rest'⟩, hliteral, heq⟩ := Option.map_eq_some_iff.mp h
      cases heq
      exact takes_of_literal? hliteral

/-- A source that is read as an expression is passed, the blanks around it included. -/
theorem passed_of_read? {source : List Char} {e : Expr} (h : read? source = some e) :
    Mark.Passed source := by
  unfold read? at h
  split at h
  · next e' rest hexpr =>
    split at h
    · next hempty =>
      have htakes := ((takes_trimLeft source).trans (takes_of_expr? hexpr)).trans
        (takes_trimLeft rest)
      rw [List.isEmpty_iff.mp hempty] at htakes
      obtain ⟨front, hsource, hfront⟩ := htakes
      rw [List.append_nil] at hsource
      exact hsource ▸ hfront
    · cases h
  · cases h

end Expr

/-- The source of a placeholder that is read as an expression ends where the expression does,
whatever follows its closing brace. -/
theorem Mark.placeholder?_of_read? {source : List Char} {e : Expr}
    (h : Expr.read? source = some e) (rest : List Char) :
    placeholder? (source ++ '\x7d' :: rest) = some (source, rest) := by
  rw [placeholder?, Expr.passed_of_read? h, closeOutsideQuotes?, if_pos rfl]
  simp

end LiveMarkup
