import LiveMarkup.Proofs.Template.Offsets
import LiveMarkup.Proofs.Template.Writing

/-!
# Where reading fails

The ends of tags and placeholders are looked for in all the text that is left, so what stands in
front of a mark might be read otherwise when the text is cut off there.  It is not: a mark that ends
before the cut is the same without what is cut off, and one that does not is plain text in both.

The first mark that does not fit decides the error.  So an error reports a mark of the text, at the
offset where this mark starts, and the text before it is read without a fault, but for a block that
may be open there.

Main definitions:

- `TemplateError.Reports`: an error is about a mark.
- `TemplateError.isUnclosed`: an error is about a block that is open at the end.
- `Segment.LeavesOpen`, `Segment.FailsAt`: marks that leave a block open, and where reading fails.

Main results:

- `Mark.ofChars_eq_append`: a text can be cut before and after a placeholder or a tag.
- `Segment.failsAt_of_outside`: reading fails at the first mark that does not fit.
- `Segment.ofText_error`: an error of a text, its place, and the text before it.
-/

namespace LiveMarkup

/-! ## Cutting a text between marks -/

namespace Mark

/-- The first closing brace outside quotes does not depend on what follows it. -/
theorem closeOutsideQuotes?_append {quote : Option Char} {cs source rest : List Char}
    (h : closeOutsideQuotes? quote cs = some (source, rest)) (rest' : List Char) :
    closeOutsideQuotes? quote (source ++ '\x7d' :: rest') = some (source, rest') := by
  fun_induction closeOutsideQuotes? quote cs generalizing source rest with
  | case1 => cases h
  | case2 => cases h
  | case3 quote e tail ih =>
    obtain ⟨⟨front, back⟩, hclose, heq⟩ := Option.map_eq_some_iff.mp h
    cases heq
    simp [closeOutsideQuotes?, ih hclose]
  | case4 c tail hslash ih =>
    obtain ⟨⟨front, back⟩, hclose, heq⟩ := Option.map_eq_some_iff.mp h
    cases heq
    rw [List.cons_append, closeOutsideQuotes?.eq_def]
    simp [hslash, ih hclose]
  | case5 quote c tail hslash hquote ih =>
    obtain ⟨⟨front, back⟩, hclose, heq⟩ := Option.map_eq_some_iff.mp h
    cases heq
    rw [List.cons_append, closeOutsideQuotes?.eq_def]
    simp [hslash, hquote, ih hclose]
  | case6 tail =>
    cases h
    simp [closeOutsideQuotes?]
  | case7 c tail hbrace hquote ih =>
    obtain ⟨⟨front, back⟩, hclose, heq⟩ := Option.map_eq_some_iff.mp h
    cases heq
    rw [List.cons_append, closeOutsideQuotes?, if_neg hbrace, if_pos hquote, ih hclose]
    rfl
  | case8 c tail hbrace hquote ih =>
    obtain ⟨⟨front, back⟩, hclose, heq⟩ := Option.map_eq_some_iff.mp h
    cases heq
    rw [List.cons_append, closeOutsideQuotes?, if_neg hbrace, if_neg hquote, ih hclose]
    rfl

/-- The first closing brace of all does not depend on what follows it. -/
theorem closeAnywhere?_append {cs source rest : List Char}
    (h : closeAnywhere? cs = some (source, rest)) (rest' : List Char) :
    closeAnywhere? (source ++ '\x7d' :: rest') = some (source, rest') := by
  fun_induction closeAnywhere? cs generalizing source rest with
  | case1 => cases h
  | case2 tail =>
    cases h
    simp [closeAnywhere?]
  | case3 c tail hbrace ih =>
    obtain ⟨⟨front, back⟩, hclose, heq⟩ := Option.map_eq_some_iff.mp h
    cases heq
    rw [List.cons_append, closeAnywhere?, if_neg hbrace, ih hclose]
    rfl

/-- A placeholder that ends before a cut is the same without what is cut off: quotes that are left
open in the whole text are left open before the cut. -/
theorem placeholder?_of_append {cs source front after : List Char}
    (h : placeholder? cs = some (source, front ++ after)) :
    placeholder? (source ++ '\x7d' :: front) = some (source, front) := by
  have hcs := eq_of_placeholder? h
  rw [placeholder?, Option.or_eq_some_iff] at h ⊢
  rcases h with houtside | ⟨hopen, hanywhere⟩
  · exact .inl (closeOutsideQuotes?_append houtside front)
  · refine .inr ⟨?_, closeAnywhere?_append hanywhere front⟩
    by_contra hne
    obtain ⟨⟨source', rest⟩, hfound⟩ := Option.ne_none_iff_exists'.mp hne
    have hlonger := closeOutsideQuotes?_append hfound (rest ++ after)
    have hsplit := eq_of_closeOutsideQuotes? hfound
    rw [hcs, ← List.cons_append, ← List.append_assoc, hsplit] at hopen
    simp [hlonger] at hopen

/-- A text that begins with no tag has no start that does. -/
theorem tag?_eq_none_of_append {front after : List Char} (h : tag? (front ++ after) = none) :
    tag? front = none := by
  by_contra hne
  obtain ⟨⟨inner, t, rest⟩, hfound⟩ := Option.ne_none_iff_exists'.mp hne
  have hexact := exact_of_tag? hfound
  rw [Exact] at hexact
  have hlonger := hexact (rest ++ after)
  rw [eq_of_tag? hfound] at h
  simp [hlonger] at h

/-- A mark that is not plain stays where it is when a character is put in front of the marks. -/
theorem consPlain_eq_append {c : Char} {marks front after : List Mark} {m : Mark}
    (hm : m.isPlain = false) (h : consPlain c marks = front ++ m :: after) :
    ∃ front', marks = front' ++ m :: after ∧ front = consPlain c front' := by
  unfold consPlain at h
  split at h
  · next run rest =>
    cases front with
    | nil =>
      cases h
      cases hm
    | cons first front =>
      cases h
      exact ⟨.plain run :: front, rfl, rfl⟩
  · next hother =>
    cases front with
    | nil =>
      cases h
      cases hm
    | cons first front =>
      obtain ⟨rfl, hrest⟩ := List.cons.inj h
      refine ⟨front, hrest, ?_⟩
      rw [consPlain_of_not_isPlain]
      intro m' hm'
      cases front with
      | nil => cases hm'
      | cons first front =>
        cases hm'
        cases m' with
        | plain run => exact absurd hrest (hother run _)
        | placeholder source => rfl
        | tag inner t => rfl

/-- The text before a mark other than plain text is read as the marks before it. -/
theorem ofChars_flatMap_of_eq_append {cs : List Char} {front after : List Mark} {m : Mark}
    (hm : m.isPlain = false) (h : ofChars cs = front ++ m :: after) :
    ofChars (front.flatMap chars) = front := by
  fun_induction ofChars cs generalizing front with
  | case1 => simp at h
  | case2 rest source tail hfound ih =>
    cases front with
    | nil => rw [List.flatMap_nil, ofChars]
    | cons first front =>
      rw [List.cons_append, List.cons.injEq] at h
      obtain ⟨rfl, htail⟩ := h
      have hsplit := flatMap_chars_ofChars tail
      rw [htail, List.flatMap_append] at hsplit
      rw [← hsplit] at hfound
      have hcut := placeholder?_of_append hfound
      rw [List.flatMap_cons, ← ih htail, ← ofChars_of_placeholder? hcut, ih htail]
      simp [chars]
  | case3 rest hnone =>
    cases front with
    | nil =>
      cases h
      cases hm
    | cons first front => simp at h
  | case4 rest inner t tail hfound ih =>
    cases front with
    | nil => rw [List.flatMap_nil, ofChars]
    | cons first front =>
      obtain ⟨rfl, htail⟩ := List.cons.inj h
      rw [List.flatMap_cons, ofChars_tag (exact_of_tag? hfound []), ih htail]
  | case5 rest hnone ih =>
    obtain ⟨front₁, h₁, rfl⟩ := consPlain_eq_append hm h
    obtain ⟨front₂, h₂, rfl⟩ := consPlain_eq_append hm h₁
    have hsplit := flatMap_chars_ofChars rest
    rw [h₂, List.flatMap_append] at hsplit
    rw [← hsplit] at hnone
    rw [flatMap_chars_consPlain, flatMap_chars_consPlain,
      ofChars_of_tag?_eq_none (tag?_eq_none_of_append hnone), ih h₂]
  | case6 c rest hplaceholder htag ih =>
    obtain ⟨front₁, h₁, rfl⟩ := consPlain_eq_append hm h
    have hsplit := flatMap_chars_ofChars rest
    rw [h₁, List.flatMap_append] at hsplit
    rw [flatMap_chars_consPlain, ofChars_cons, ih h₁]
    rintro d hd ⟨rfl | rfl, rfl⟩ <;> obtain ⟨tail, htail⟩ := List.head?_eq_some_iff.mp hd
    · exact hplaceholder _ rfl (by rw [← hsplit, htail, List.cons_append])
    · exact htag _ rfl (by rw [← hsplit, htail, List.cons_append])

/-- The text behind a mark other than plain text is read as the marks behind it. -/
theorem exists_rest_of_eq_append {cs : List Char} {front after : List Mark} {m : Mark}
    (hm : m.isPlain = false) (h : ofChars cs = front ++ m :: after) :
    ∃ rest, ofChars rest = after := by
  fun_induction ofChars cs generalizing front with
  | case1 => simp at h
  | case2 rest source tail hfound ih =>
    cases front with
    | nil => exact ⟨tail, (List.cons.inj h).2⟩
    | cons first front => exact ih (List.cons.inj h).2
  | case3 rest hnone =>
    cases front with
    | nil =>
      cases h
      cases hm
    | cons first front => simp at h
  | case4 rest inner t tail hfound ih =>
    cases front with
    | nil => exact ⟨tail, (List.cons.inj h).2⟩
    | cons first front => exact ih (List.cons.inj h).2
  | case5 rest hnone ih =>
    obtain ⟨front₁, h₁, -⟩ := consPlain_eq_append hm h
    obtain ⟨front₂, h₂, -⟩ := consPlain_eq_append hm h₁
    exact ih h₂
  | case6 c rest hplaceholder htag ih =>
    obtain ⟨front₁, h₁, -⟩ := consPlain_eq_append hm h
    exact ih h₁

/-- A text can be cut before and after a mark other than plain text. -/
theorem ofChars_eq_append {cs : List Char} {front after : List Mark} {m : Mark}
    (hm : m.isPlain = false) (h : ofChars cs = front ++ m :: after) :
    ∃ before rest, cs = before ++ m.chars ++ rest ∧ ofChars before = front ∧
      ofChars rest = after := by
  obtain ⟨rest, rfl⟩ := exists_rest_of_eq_append hm h
  refine ⟨front.flatMap chars, rest, ?_, ofChars_flatMap_of_eq_append hm h, rfl⟩
  rw [← flatMap_chars_ofChars cs, h, List.flatMap_append, List.flatMap_cons,
    flatMap_chars_ofChars, List.append_assoc]

end Mark

/-! ## What an error reports -/

namespace TemplateError

/-- An error is about a mark: a placeholder with just the source that it reports, which is no
expression, or a tag of the name that it reports. -/
inductive Reports : TemplateError → Mark → Prop where
  | expression {source : List Char} (offset : Nat) (hnone : Expr.read? source = none) :
      Reports (.invalidExpression (String.ofList source) offset) (.placeholder source)
  | mismatched (opened : String) (inner name : List Char) (offset : Nat) :
      Reports (.malformedBlock (.mismatched opened (String.ofList name)) offset)
        (.tag inner (.closing name))
  | unclosed (inner name : List Char) (path : List String) (offset : Nat) :
      Reports (.malformedBlock (.unclosed (String.ofList name)) offset)
        (.tag inner (.opening name path))
  | strayClose (inner name : List Char) (offset : Nat) :
      Reports (.malformedBlock (.strayClose (String.ofList name)) offset)
        (.tag inner (.closing name))
  | nested (outer : String) (inner name : List Char) (path : List String) (offset : Nat) :
      Reports (.malformedBlock (.nested outer (String.ofList name)) offset)
        (.tag inner (.opening name path))
  | unknownHelper (inner name : List Char) (path : List String) (offset : Nat) :
      Reports (.malformedBlock (.unknownHelper (String.ofList name)) offset)
        (.tag inner (.opening name path))

/-- Whether an error is about a block that is open at the end of the text. -/
def isUnclosed : TemplateError → Bool
  | .malformedBlock (.unclosed _) _ => true
  | _ => false

/-- No error reports plain text. -/
theorem Reports.isPlain_eq {e : TemplateError} {m : Mark} (h : e.Reports m) :
    m.isPlain = false := by
  cases h <;> rfl

end TemplateError

/-! ## Reading up to an error -/

namespace Segment

/-- Marks that are read as segments are read one after the other. -/
theorem Reads.append {front marks : List Mark} {segments others : List Segment}
    (h : Reads front segments) (h' : Reads marks others) :
    Reads (front ++ marks) (segments ++ others) := by
  induction h with
  | nil => exact h'
  | piece hpiece _ ih => exact .piece hpiece ih
  | each hbody _ ih =>
    rw [List.cons_append, List.append_assoc, List.cons_append]
    exact .each hbody ih

/-- Marks that open a block at the end and do not close it. -/
inductive LeavesOpen : List Mark → Prop where
  | intro {front pieces : List Mark} {segments : List Segment} {inner : List Char}
      {path : List String} {body : List Piece} (hfront : Reads front segments)
      (hbody : List.Forall₂ Piece.OfMark pieces body) :
      LeavesOpen (front ++ .tag inner (.opening eachName path) :: pieces)

/-- Where reading fails: at the opening tag of a block that is open at the end, or at a mark behind
marks that are read, or that leave a block open. -/
inductive FailsAt (offset : Nat) (e : TemplateError) : List Mark → Prop where
  | unclosed {front pieces : List Mark} {segments : List Segment} {inner : List Char}
      {path : List String} {body : List Piece} (hfront : Reads front segments)
      (hbody : List.Forall₂ Piece.OfMark pieces body)
      (he : e = .malformedBlock (.unclosed (String.ofList eachName))
        (offset + byteLength (front.flatMap Mark.chars))) :
      FailsAt offset e (front ++ .tag inner (.opening eachName path) :: pieces)
  | mark {front after : List Mark} {m : Mark} (hm : e.Reports m) (hclosed : e.isUnclosed = false)
      (hoffset : e.offset = offset + byteLength (front.flatMap Mark.chars))
      (hfront : (∃ segments, Reads front segments) ∨ LeavesOpen front) :
      FailsAt offset e (front ++ m :: after)

/-- A block that is left open stays so behind marks that are read. -/
theorem LeavesOpen.append {front marks : List Mark} {segments : List Segment}
    (h : Reads front segments) (h' : LeavesOpen marks) : LeavesOpen (front ++ marks) := by
  cases h' with
  | intro hfront hbody =>
    rw [← List.append_assoc]
    exact .intro (h.append hfront) hbody

/-- Reading fails further on behind marks that are read. -/
theorem FailsAt.append {front marks : List Mark} {segments : List Segment} {offset : Nat}
    {e : TemplateError} (h : Reads front segments)
    (h' : FailsAt (offset + byteLength (front.flatMap Mark.chars)) e marks) :
    FailsAt offset e (front ++ marks) := by
  cases h' with
  | unclosed hfront hbody he =>
    rw [← List.append_assoc]
    refine .unclosed (h.append hfront) hbody ?_
    rw [he, List.flatMap_append, byteLength_append, Nat.add_assoc]
  | mark hm hclosed hoffset hfront =>
    rw [← List.append_assoc]
    refine .mark hm hclosed ?_ ?_
    · rw [hoffset, List.flatMap_append, byteLength_append, Nat.add_assoc]
    · rcases hfront with ⟨others, hothers⟩ | hopen
      · exact .inl ⟨_, h.append hothers⟩
      · exact .inr (.append h hopen)

/-- An error lies further on behind a mark that is read. -/
theorem FailsAt.cons {m : Mark} {p : Piece} {marks : List Mark} {offset : Nat} {e : TemplateError}
    (hpiece : Piece.OfMark m p) (h : FailsAt (offset + byteLength m.chars) e marks) :
    FailsAt offset e (m :: marks) := by
  refine append (.piece hpiece .nil) ?_
  simpa using h

/-- An error at the first mark is the first one. -/
theorem FailsAt.head {offset : Nat} {e : TemplateError} {m : Mark} (hm : e.Reports m)
    (hclosed : e.isUnclosed = false) (hoffset : e.offset = offset) (after : List Mark) :
    FailsAt offset e (m :: after) :=
  @mark offset e [] after m hm hclosed hoffset (.inl ⟨[], .nil⟩)

/-- A block in which there are pieces only is not closed. -/
theorem inside_of_pieces {pieces : List Mark} {body : List Piece}
    (h : List.Forall₂ Piece.OfMark pieces body) (start offset : Nat) :
    inside start offset pieces =
      .error (.malformedBlock (.unclosed (String.ofList eachName)) start) := by
  induction h generalizing offset with
  | nil => rw [inside]
  | cons hpiece _ ih =>
    cases hpiece with
    | literal run => rw [inside, ih]
    | placeholder he =>
      rw [inside, he]
      dsimp only
      rw [ih]

/-- Marks that leave a block open are read as a block that is never closed. -/
theorem outside_of_leavesOpen {marks : List Mark} (h : LeavesOpen marks) (offset : Nat) :
    ∃ start, outside offset marks =
      .error (.malformedBlock (.unclosed (String.ofList eachName)) start) := by
  cases h with
  | @intro front _ _ _ _ _ hfront hbody =>
    refine ⟨offset + byteLength (front.flatMap Mark.chars), ?_⟩
    rw [outside_append hfront, outside, if_pos rfl, inside_of_pieces hbody]
    rfl

/-- How reading the body of a block can fail: the body never ends, a mark in it does not fit, or
reading fails behind the block. -/
inductive BodyFailsAt (start offset : Nat) (e : TemplateError) : List Mark → Prop where
  | unclosed {pieces : List Mark} {body : List Piece}
      (hbody : List.Forall₂ Piece.OfMark pieces body)
      (he : e = .malformedBlock (.unclosed (String.ofList eachName)) start) :
      BodyFailsAt start offset e pieces
  | mark {front after : List Mark} {m : Mark} {body : List Piece}
      (hbody : List.Forall₂ Piece.OfMark front body) (hm : e.Reports m)
      (hclosed : e.isUnclosed = false)
      (hoffset : e.offset = offset + byteLength (front.flatMap Mark.chars)) :
      BodyFailsAt start offset e (front ++ m :: after)
  | behind {front after : List Mark} {inner : List Char} {body : List Piece}
      (hbody : List.Forall₂ Piece.OfMark front body)
      (hafter : outside (offset + byteLength (front.flatMap Mark.chars) +
        byteLength (Mark.tag inner (.closing eachName)).chars) after = .error e) :
      BodyFailsAt start offset e (front ++ .tag inner (.closing eachName) :: after)

/-- An error at the first mark of a body is the first one. -/
theorem BodyFailsAt.head {start offset : Nat} {e : TemplateError} {m : Mark} (hm : e.Reports m)
    (hclosed : e.isUnclosed = false) (hoffset : e.offset = offset) (after : List Mark) :
    BodyFailsAt start offset e (m :: after) :=
  @mark start offset e [] after m [] .nil hm hclosed hoffset

/-- A piece more in front. -/
theorem BodyFailsAt.cons {start offset : Nat} {e : TemplateError} {m : Mark} {p : Piece}
    {marks : List Mark} (hpiece : Piece.OfMark m p)
    (h : BodyFailsAt start (offset + byteLength m.chars) e marks) :
    BodyFailsAt start offset e (m :: marks) := by
  cases h with
  | unclosed hbody he => exact .unclosed (.cons hpiece hbody) he
  | mark hbody hm hclosed hoffset =>
    rw [← List.cons_append]
    refine .mark (.cons hpiece hbody) hm hclosed ?_
    rw [hoffset, List.flatMap_cons, byteLength_append, Nat.add_assoc]
  | behind hbody hafter =>
    rw [← List.cons_append]
    refine .behind (.cons hpiece hbody) ?_
    rw [List.flatMap_cons, byteLength_append, ← Nat.add_assoc, hafter]

/-- The error of a body is the first one in it. -/
theorem bodyFailsAt_of_inside {start offset : Nat} {marks : List Mark} {e : TemplateError}
    (h : inside start offset marks = .error e) : BodyFailsAt start offset e marks := by
  induction marks generalizing offset with
  | nil =>
    cases h
    exact .unclosed .nil rfl
  | cons m rest ih =>
    cases m with
    | plain run =>
      rw [inside] at h
      split at h
      · cases h
      · next hrest =>
        cases h
        exact .cons (.literal run) (ih hrest)
    | placeholder source =>
      rw [inside] at h
      split at h
      · next hnone =>
        cases h
        exact .head (.expression offset hnone) rfl rfl rest
      · next he =>
        split at h
        · cases h
        · next hrest =>
          cases h
          exact .cons (.placeholder he) (ih hrest)
    | tag inner t =>
      cases t with
      | opening name path =>
        cases h
        exact .head (.nested _ inner name path offset) rfl rfl rest
      | closing name =>
        rw [inside] at h
        split at h
        · next hname =>
          subst hname
          split at h
          · cases h
          · next hrest =>
            cases h
            exact @BodyFailsAt.behind start offset _ [] rest inner [] .nil hrest
        · cases h
          exact .head (.mismatched _ inner name offset) rfl rfl rest

/-- Where reading the body of a block fails, or reading behind the block, there reading fails. -/
theorem FailsAt.of_body {offset : Nat} {inner : List Char} {path : List String}
    {marks : List Mark} {e : TemplateError}
    (h : BodyFailsAt offset
      (offset + byteLength (Mark.tag inner (.opening eachName path)).chars) e marks)
    (hbehind : ∀ after offset', after.length < marks.length →
      outside offset' after = .error e → FailsAt offset' e after) :
    FailsAt offset e (.tag inner (.opening eachName path) :: marks) := by
  cases h with
  | unclosed hbody he => exact @unclosed _ _ [] marks [] inner path _ .nil hbody he
  | mark hbody hm hclosed hoffset =>
    rw [← List.cons_append]
    refine .mark hm hclosed ?_ (.inr (@LeavesOpen.intro [] _ [] inner path _ .nil hbody))
    rw [hoffset, List.flatMap_cons, byteLength_append, Nat.add_assoc]
  | @behind front after inner' body hbody hafter =>
    have hblock : Reads (.tag inner (.opening eachName path) ::
        (front ++ [.tag inner' (.closing eachName)])) [.each path body] := .each hbody .nil
    have hfails := hbehind after _ (by simp; omega) hafter
    have hassoc : .tag inner (.opening eachName path) ::
        (front ++ .tag inner' (.closing eachName) :: after) =
        (.tag inner (.opening eachName path) ::
          (front ++ [.tag inner' (.closing eachName)])) ++ after := by
      simp
    rw [hassoc]
    refine .append hblock ?_
    simpa [Nat.add_assoc] using hfails

/-- Reading fails at the first mark that does not fit. -/
theorem failsAt_of_outside {offset : Nat} {marks : List Mark} {e : TemplateError}
    (h : outside offset marks = .error e) : FailsAt offset e marks := by
  match marks with
  | [] => cases h
  | .plain run :: rest =>
    rw [outside] at h
    split at h
    · cases h
    · next hrest =>
      cases h
      exact .cons (.literal run) (failsAt_of_outside hrest)
  | .placeholder source :: rest =>
    rw [outside] at h
    split at h
    · next hnone =>
      cases h
      exact .head (.expression offset hnone) rfl rfl rest
    · next he =>
      split at h
      · cases h
      · next hrest =>
        cases h
        exact .cons (.placeholder he) (failsAt_of_outside hrest)
  | .tag inner (.opening name path) :: rest =>
    rw [outside] at h
    split at h
    · next hname =>
      subst hname
      split at h
      · cases h
      · next hinside =>
        cases h
        exact .of_body (bodyFailsAt_of_inside hinside) fun _ _ _ hrest => failsAt_of_outside hrest
    · cases h
      exact .head (.unknownHelper inner name path offset) rfl rfl rest
  | .tag inner (.closing name) :: rest =>
    cases h
    exact .head (.strayClose inner name offset) rfl rfl rest
termination_by marks.length
decreasing_by all_goals simp <;> omega

/-- An error of a text is about a mark of it and has the offset where this mark starts.  The text
before the mark is read without a fault, but for a block that may be open there.  If the error is
that a block is open at the end, the mark is its opening tag: the text before it is read, and behind
it there are only literals and placeholders. -/
theorem ofText_error {text : String} {e : TemplateError} (h : ofText text = .error e) :
    ∃ (before rest : String) (m : Mark), text = before ++ String.ofList m.chars ++ rest ∧
      before.utf8ByteSize = e.offset ∧ m.Exact ∧ e.Reports m ∧
      if e.isUnclosed = true then
        (∃ segments, ofText before = .ok segments) ∧
          ∃ body, List.Forall₂ Piece.OfMark (Mark.ofChars rest.toList) body
      else
        (∃ segments, ofText before = .ok segments) ∨
          ∃ e', ofText before = .error e' ∧ e'.isUnclosed = true := by
  have hcut {front after : List Mark} {m : Mark} (hm : e.Reports m)
      (hmarks : Mark.ofChars text.toList = front ++ m :: after) :
      ∃ before rest : String, text = before ++ String.ofList m.chars ++ rest ∧
        before.utf8ByteSize = byteLength (front.flatMap Mark.chars) ∧ m.Exact ∧
        Mark.ofChars before.toList = front ∧ Mark.ofChars rest.toList = after := by
    obtain ⟨before, rest, htext, hbefore, hrest⟩ := Mark.ofChars_eq_append hm.isPlain_eq hmarks
    refine ⟨String.ofList before, String.ofList rest, ?_, ?_, ?_, ?_, ?_⟩
    · rw [← String.ofList_append, ← String.ofList_append, ← htext, String.ofList_toList]
    · rw [← byteLength_toList, String.toList_ofList, ← hbefore, Mark.flatMap_chars_ofChars]
    · refine (Mark.exact_ofChars text.toList).1 m ?_
      rw [hmarks]
      exact List.mem_append_right front List.mem_cons_self
    · rwa [String.toList_ofList]
    · rwa [String.toList_ofList]
  have hfails := failsAt_of_outside h
  generalize hmarks : Mark.ofChars text.toList = marks at hfails
  cases hfails with
  | @unclosed front pieces segments inner path body hfront hbody he =>
    have hm : e.Reports (.tag inner (.opening eachName path)) := by
      rw [he]
      exact .unclosed inner eachName path _
    obtain ⟨before, rest, htext, hsize, hexact, hbefore, hrest⟩ := hcut hm hmarks
    refine ⟨before, rest, _, htext, ?_, hexact, hm, ?_⟩
    · rw [hsize, he]
      exact (Nat.zero_add _).symm
    · have hunclosed : e.isUnclosed = true := by
        rw [he]
        rfl
      rw [if_pos hunclosed]
      refine ⟨⟨segments, ?_⟩, body, by rwa [hrest]⟩
      rw [ofText, hbefore, outside_of_reads hfront]
  | @mark front after m hm hclosed hoffset hfront =>
    obtain ⟨before, rest, htext, hsize, hexact, hbefore, -⟩ := hcut hm hmarks
    refine ⟨before, rest, m, htext, by rw [hsize, hoffset, Nat.zero_add], hexact, hm, ?_⟩
    rw [if_neg (by simp [hclosed]), ofText, hbefore]
    rcases hfront with ⟨segments, hsegments⟩ | hopen
    · exact .inl ⟨segments, outside_of_reads hsegments 0⟩
    · obtain ⟨start, hstart⟩ := outside_of_leavesOpen hopen 0
      exact .inr ⟨_, hstart, rfl⟩

/-- A placeholder in an open block with a word too many behind a quoted closing brace, and a closing
tag behind it.  The text before it is read as a block that is never closed. -/
theorem ofText_error_in_open_block :
    let text := "#\x7bx\x7d\x7b\x7beach a\x7d\x7d\u00e9#\x7b'\x7d' y\x7d\x7b\x7b/each\x7d\x7d"
    let e := TemplateError.invalidExpression "'\x7d' y" 16
    ofText text = .error e ∧
      ∃ (before rest : String) (m : Mark), text = before ++ String.ofList m.chars ++ rest ∧
        before.utf8ByteSize = e.offset ∧ m.Exact ∧ e.Reports m ∧
        if e.isUnclosed = true then
          (∃ segments, ofText before = .ok segments) ∧
            ∃ body, List.Forall₂ Piece.OfMark (Mark.ofChars rest.toList) body
        else
          (∃ segments, ofText before = .ok segments) ∨
            ∃ e', ofText before = .error e' ∧ e'.isUnclosed = true := by
  intro text e
  have herror : ofText text = .error e := by cbv
  exact ⟨herror, ofText_error herror⟩

end Segment
end LiveMarkup
