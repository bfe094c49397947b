import LiveMarkup.Proofs.Template.Grammar

/-!
# Reading what the grammar derives

An argument ends where a comma or the closing parenthesis follows, blanks aside, and an expression
where nothing but blanks follow.  In such a place the readers take just what the grammar derives,
the whole list of arguments of a call included, so an expression is read from a whole text if and
only if the grammar derives it.

Main definitions:

- `Expr.Follows`: a text with which an argument can go on.

Main results:

- `Expr.operands?_of_listed`, `Expr.listed_of_operands?`: the arguments of a call.
- `Expr.expr?_of_derived`, `Expr.derived_of_expr?`: the reader takes just what is derived.
- `Expr.read_iff_written`: the expression of a whole text is the only one that the grammar knows.
-/

namespace LiveMarkup
namespace Expr

/-! ## Arguments -/

/-- A text with which an argument can go on: it has ended, and no call begins. -/
structure Follows (rest : List Char) : Prop where
  ends : Ends rest
  opensCall : opensCall (Text.trimLeft rest) = false

theorem operandOfPath_derived {cs : List Char} {segments : List String} (h : Dotted cs segments) :
    (operandOfPath segments).Derived cs := by
  rw [operandOfPath_eq]
  split
  · next v hv => exact .keyword h hv
  · next hnone => exact .path h hnone

/-- What is derived starts as the readers expect it. -/
theorem literal_or_dotted {o : Operand} {cs : List Char} (h : o.Derived cs) :
    (∃ c tail, cs = c :: tail ∧ isIdentStart c = false ∧ ∃ v, o = .literal v ∧
      ∀ rest, Ends rest → literal? (cs ++ rest) = some (v, rest)) ∨
    ∃ segments, Dotted cs segments ∧ o = operandOfPath segments := by
  cases h with
  | @string quote cs body hquote h =>
    refine .inl ⟨quote, cs ++ [quote], rfl, ?_, _, rfl, fun rest _ => ?_⟩
    · rcases hquote with rfl | rfl <;> rfl
    · simpa using literal?_of_quoting hquote h rest
  | number h =>
    obtain ⟨c, tail, hcs, hc⟩ := h.text.exists_cons
    refine .inl ⟨c, tail, hcs, ?_, _, rfl, fun rest => literal?_of_numeral h⟩
    exact isIdentStart_of_begins hc
  | keyword h hv => exact .inr ⟨_, h, by rw [operandOfPath_eq, hv]⟩
  | path h hnone => exact .inr ⟨_, h, by rw [operandOfPath_eq, hnone]⟩

/-- An argument is read up to its end, maybe with the blanks behind it. -/
theorem operand?_of_derived {o : Operand} {cs : List Char} (h : o.Derived cs) {rest : List Char}
    (hrest : Follows rest) :
    ∃ rest', operand? (cs ++ rest) = some (o, rest') ∧
      Text.trimLeft rest' = Text.trimLeft rest := by
  rcases literal_or_dotted h with ⟨c, tail, rfl, hc, v, rfl, hread⟩ | ⟨segments, hdotted, rfl⟩
  · refine ⟨rest, ?_, rfl⟩
    have hliteral := hread rest hrest.ends
    rw [List.cons_append] at hliteral ⊢
    rw [operand?, hliteral]
    simp [hc]
  · refine ⟨Text.trimLeft rest, ?_, Text.trimLeft_trimLeft rest⟩
    have hpath := pathHere?_of_dotted hdotted hrest.ends
    obtain ⟨c, tail, rfl, hc⟩ := hdotted.exists_cons
    rw [List.cons_append] at hpath ⊢
    rw [operand?, if_pos hc, hpath]
    simp [hrest.opensCall]

theorem derived_of_operand? {cs rest : List Char} {o : Operand}
    (h : operand? cs = some (o, rest)) :
    ∃ front blanks, cs = front ++ blanks ++ rest ∧ o.Derived front ∧ Text.Blank blanks := by
  unfold operand? at h
  split at h
  · cases h
  · next c tail =>
    split at h
    · split at h
      · cases h
      · next segments rest' hpath =>
        split at h
        · cases h
        · cases h
          obtain ⟨front, blanks, hcs, hfront, hblanks⟩ := dotted_of_pathHere? hpath
          exact ⟨front, blanks, hcs, operandOfPath_derived hfront, hblanks⟩
    · obtain ⟨⟨v, rest'⟩, hliteral, heq⟩ := Option.map_eq_some_iff.mp h
      cases heq
      obtain ⟨front, hcs, hfront⟩ := derived_of_literal? hliteral
      exact ⟨front, [], by simpa using hcs, hfront, by simp [Text.Blank]⟩

/-- What is derived starts with no blank and with no parenthesis. -/
theorem exists_cons_of_derived {o : Operand} {cs : List Char} (h : o.Derived cs) :
    ∃ c tail, cs = c :: tail ∧ Text.isBlank c = false ∧ c ≠ ')' := by
  have hpath {c : Char} (hc : isPathChar c = true) : Text.isBlank c = false ∧ c ≠ ')' := by
    refine ⟨isBlank_of_isPathChar hc, ?_⟩
    rintro rfl
    exact absurd hc (by decide)
  have hdotted {segments : List String} (h : Dotted cs segments) :
      ∃ c tail, cs = c :: tail ∧ Text.isBlank c = false ∧ c ≠ ')' := by
    obtain ⟨c, tail, hcs, hc⟩ := h.exists_cons
    exact ⟨c, tail, hcs, hpath (isPathChar_of_isIdentStart hc)⟩
  cases h with
  | string hquote h => rcases hquote with rfl | rfl <;> exact ⟨_, _, rfl, by decide, by decide⟩
  | number h =>
    obtain ⟨c, tail, hcs, hdigit | rfl⟩ := h.text.exists_cons
    · refine ⟨c, tail, hcs, hpath ?_⟩
      simp [isPathChar, isIdentChar, Char.isAlphanum, hdigit]
    · exact ⟨_, tail, hcs, by decide, by decide⟩
  | keyword h _ => exact hdotted h
  | path h _ => exact hdotted h

/-- Blanks and then a comma or a parenthesis end an argument. -/
theorem follows_append {after : List Char} (hafter : Text.Blank after) {c : Char}
    (hc : c = ',' ∨ c = ')') (rest : List Char) :
    Follows (after ++ c :: rest) ∧ Text.trimLeft (after ++ c :: rest) = c :: rest := by
  have htrim : Text.trimLeft (after ++ c :: rest) = c :: rest :=
    Text.trimLeft_append_cons hafter (by rcases hc with rfl | rfl <;> decide) rest
  refine ⟨⟨ends_append hafter ?_, ?_⟩, htrim⟩
  · rintro _ ⟨⟩
    rcases hc with rfl | rfl <;> decide
  · rw [htrim]
    rcases hc with rfl | rfl <;> rfl

/-- An argument is read up to a comma or the closing parenthesis, the blanks around it skipped. -/
theorem operands?_append {o : Operand} {before cs after : List Char} (hbefore : Text.Blank before)
    (h : o.Derived cs) (hafter : Text.Blank after) (rest : List Char) :
    operands? (before ++ cs ++ after ++ ')' :: rest) = some ([o], rest) ∧
      operands? (before ++ cs ++ after ++ ',' :: rest) =
        (operands? rest).map fun r => (o :: r.1, r.2) := by
  have hread {c : Char} (hc : c = ',' ∨ c = ')') :
      ∃ rest', operand? (Text.trimLeft (before ++ cs ++ after ++ c :: rest)) = some (o, rest') ∧
        Text.trimLeft rest' = c :: rest := by
    obtain ⟨hfollows, htrim⟩ := follows_append hafter hc rest
    obtain ⟨rest', hread, htrim'⟩ := operand?_of_derived h hfollows
    obtain ⟨d, tail, rfl, hd, -⟩ := exists_cons_of_derived h
    rw [List.append_assoc, List.append_assoc, List.cons_append,
      Text.trimLeft_append_cons hbefore hd]
    exact ⟨rest', hread, htrim'.trans htrim⟩
  constructor
  · obtain ⟨rest', hread, htrim⟩ := hread (.inr rfl)
    rw [operands?]
    split <;> simp_all
    split <;> simp_all
  · obtain ⟨rest', hread, htrim⟩ := hread (.inl rfl)
    rw [operands?]
    split <;> simp_all
    split <;> simp_all

/-- The arguments of a call are read up to the closing parenthesis. -/
theorem operands?_of_listed {args : List Operand} {cs : List Char} (h : Operand.Listed args cs)
    (rest : List Char) : operands? (cs ++ ')' :: rest) = some (args, rest) := by
  induction h with
  | last hbefore h hafter => exact (operands?_append hbefore h hafter rest).1
  | @cons o others before cs after more hbefore h hafter hmore ih =>
    rw [List.append_assoc, List.cons_append, (operands?_append hbefore h hafter _).2, ih]
    rfl

/-- What is read as arguments is a list of them. -/
theorem listed_of_operands? {cs rest : List Char} {args : List Operand}
    (h : operands? cs = some (args, rest)) :
    ∃ front, cs = front ++ ')' :: rest ∧ Operand.Listed args front := by
  fun_induction operands? cs generalizing args rest with
  | case1 => cases h
  | case2 cs o after hoperand more hsep ih =>
    obtain ⟨⟨others, rest'⟩, hmore, heq⟩ := Option.map_eq_some_iff.mp h
    cases heq
    obtain ⟨inner, rfl, hinner⟩ := ih hmore
    obtain ⟨before, hbefore, hcs⟩ := Text.exists_blank_append_trimLeft cs
    obtain ⟨front, blanks, htrim, hfront, hblanks⟩ := derived_of_operand? hoperand
    obtain ⟨blanks', hblanks', hafter⟩ := Text.exists_blank_append_trimLeft after
    refine ⟨before ++ front ++ (blanks ++ blanks') ++ ',' :: inner, ?_,
      .cons hbefore hfront (List.forall_mem_append.mpr ⟨hblanks, hblanks'⟩) hinner⟩
    rw [hcs, htrim, hafter, hsep]
    simp
  | case3 cs o after hoperand more hsep =>
    cases h
    obtain ⟨before, hbefore, hcs⟩ := Text.exists_blank_append_trimLeft cs
    obtain ⟨front, blanks, htrim, hfront, hblanks⟩ := derived_of_operand? hoperand
    obtain ⟨blanks', hblanks', hafter⟩ := Text.exists_blank_append_trimLeft after
    refine ⟨before ++ front ++ (blanks ++ blanks'), ?_,
      .last hbefore hfront (List.forall_mem_append.mpr ⟨hblanks, hblanks'⟩)⟩
    rw [hcs, htrim, hafter, hsep]
    simp
  | case4 => cases h

/-- Blanks before a list of arguments belong to its first argument. -/
theorem listed_append {blanks cs : List Char} {args : List Operand} (hblanks : Text.Blank blanks)
    (h : Operand.Listed args cs) : Operand.Listed args (blanks ++ cs) := by
  cases h with
  | last hbefore h hafter =>
    rw [← List.append_assoc, ← List.append_assoc]
    exact .last (List.forall_mem_append.mpr ⟨hblanks, hbefore⟩) h hafter
  | cons hbefore h hafter hmore =>
    rw [← List.append_assoc, ← List.append_assoc, ← List.append_assoc]
    exact .cons (List.forall_mem_append.mpr ⟨hblanks, hbefore⟩) h hafter hmore

/-- A list of arguments without the blanks before it starts with no parenthesis. -/
theorem exists_trimLeft_of_listed {args : List Operand} {cs : List Char}
    (h : Operand.Listed args cs) :
    ∃ c tail, Operand.Listed args (c :: tail) ∧ c ≠ ')' ∧
      ∀ rest, Text.trimLeft (cs ++ rest) = c :: (tail ++ rest) := by
  have hnil : Text.Blank [] := by
    simp [Text.Blank]
  cases h with
  | last hbefore h hafter =>
    obtain ⟨c, tail, rfl, hblank, hc⟩ := exists_cons_of_derived h
    refine ⟨c, _, .last hnil h hafter, hc, fun rest => ?_⟩
    rw [List.append_assoc, List.append_assoc, List.cons_append,
      Text.trimLeft_append_cons hbefore hblank]
    simp
  | cons hbefore h hafter hmore =>
    obtain ⟨c, tail, rfl, hblank, hc⟩ := exists_cons_of_derived h
    refine ⟨c, _, .cons hnil h hafter hmore, hc, fun rest => ?_⟩
    rw [List.append_assoc, List.append_assoc, List.append_assoc, List.cons_append,
      Text.trimLeft_append_cons hbefore hblank]
    simp

/-- The arguments of a call, if any, are read up to the closing parenthesis. -/
theorem args?_of_arguments {args : List Operand} {cs : List Char}
    (h : Operand.Arguments args cs) (rest : List Char) :
    args? (cs ++ ')' :: rest) = some (args, rest) := by
  rcases h with ⟨rfl, hblank⟩ | hlisted
  · rw [args?, (follows_append hblank (.inr rfl) rest).2]
    rfl
  · obtain ⟨c, tail, htrimmed, hc, htrim⟩ := exists_trimLeft_of_listed hlisted
    have hread := operands?_of_listed htrimmed rest
    rw [List.cons_append] at hread
    rw [args?, htrim]
    split
    · next heq =>
      cases heq
      exact absurd rfl hc
    · exact hread

theorem arguments_of_args? {cs rest : List Char} {args : List Operand}
    (h : args? cs = some (args, rest)) :
    ∃ front, cs = front ++ ')' :: rest ∧ Operand.Arguments args front := by
  obtain ⟨before, hbefore, hcs⟩ := Text.exists_blank_append_trimLeft cs
  unfold args? at h
  split at h
  · next more htrim =>
    cases h
    exact ⟨before, by rw [hcs, htrim], .inl ⟨rfl, hbefore⟩⟩
  · obtain ⟨front, htrim, hfront⟩ := listed_of_operands? h
    exact ⟨before ++ front, by rw [hcs, htrim, List.append_assoc],
      .inr (listed_append hbefore hfront)⟩

/-! ## Expressions -/

/-- A name with a parenthesis behind it, maybe after blanks, is a call. -/
theorem expr?_call {name blanks : List Char} (hname : isIdent name = true)
    (hblanks : Text.Blank blanks) (rest : List Char) :
    expr? (name ++ blanks ++ '(' :: rest) =
      (args? rest).map fun r => (.call (String.ofList name) r.1, r.2) := by
  have hends : Ends (blanks ++ '(' :: rest) := by
    refine ends_append hblanks ?_
    rintro _ ⟨⟩
    decide
  have htrim : Text.trimLeft (blanks ++ '(' :: rest) = '(' :: rest :=
    Text.trimLeft_append_cons hblanks (by decide) rest
  have hdotted : Dotted name [String.ofList name] := Dotted.singleton_iff.mpr ⟨hname, rfl⟩
  have hpath := pathHere?_of_dotted hdotted hends
  obtain ⟨c, tail, rfl, hc⟩ := hdotted.exists_cons
  rw [htrim, List.cons_append] at hpath
  rw [List.append_assoc, List.cons_append, expr?, if_pos hc, hpath]
  rfl

/-- What is derived is read up to its end, maybe with the blanks behind it. -/
theorem expr?_of_derived {e : Expr} {cs rest : List Char} (h : e.Derived cs)
    (hrest : Follows rest) :
    ∃ rest', expr? (cs ++ rest) = some (e, rest') ∧ Text.trimLeft rest' = Text.trimLeft rest := by
  cases h with
  | operand h =>
    rcases literal_or_dotted h with ⟨c, tail, rfl, hc, v, rfl, hread⟩ | ⟨segments, hdotted, rfl⟩
    · refine ⟨rest, ?_, rfl⟩
      have hliteral := hread rest hrest.ends
      rw [List.cons_append] at hliteral ⊢
      rw [expr?, hliteral]
      simp [hc]
    · refine ⟨Text.trimLeft rest, ?_, Text.trimLeft_trimLeft rest⟩
      have hpath := pathHere?_of_dotted hdotted hrest.ends
      have hcall := hrest.opensCall
      obtain ⟨c, tail, rfl, hc⟩ := hdotted.exists_cons
      rw [List.cons_append] at hpath ⊢
      rw [expr?, if_pos hc, hpath]
      split <;> simp_all [Expr.opensCall]
  | @call name blanks inner args hname hblanks hargs =>
    refine ⟨rest, ?_, rfl⟩
    have hassoc : name ++ blanks ++ '(' :: (inner ++ [')']) ++ rest =
        name ++ blanks ++ '(' :: (inner ++ ')' :: rest) := by
      simp
    rw [hassoc, expr?_call hname hblanks, args?_of_arguments hargs]
    rfl

/-- What is read is derived, the blanks behind it aside. -/
theorem derived_of_expr? {cs rest : List Char} {e : Expr} (h : expr? cs = some (e, rest)) :
    ∃ front blanks, cs = front ++ blanks ++ rest ∧ e.Derived front ∧ Text.Blank blanks := by
  unfold expr? at h
  split at h
  · cases h
  · next c tail =>
    split at h
    · split at h
      · cases h
      · next segments more hpath =>
        split at h
        · next name =>
          obtain ⟨⟨args, rest'⟩, hargs, heq⟩ := Option.map_eq_some_iff.mp h
          cases heq
          obtain ⟨front, blanks, hcs, hfront, hblanks⟩ := dotted_of_pathHere? hpath
          obtain ⟨hname, rfl⟩ := Dotted.singleton_iff.mp hfront
          obtain ⟨inner, rfl, hinner⟩ := arguments_of_args? hargs
          exact ⟨_, [], by simp [hcs], .call hname hblanks hinner, by simp [Text.Blank]⟩
        · cases h
      · next segments rest' _ hpath =>
        cases h
        obtain ⟨front, blanks, hcs, hfront, hblanks⟩ := dotted_of_pathHere? hpath
        exact ⟨front, blanks, hcs, .operand (operandOfPath_derived hfront), hblanks⟩
    · obtain ⟨⟨v, rest'⟩, hliteral, heq⟩ := Option.map_eq_some_iff.mp h
      cases heq
      obtain ⟨front, hcs, hfront⟩ := derived_of_literal? hliteral
      exact ⟨front, [], by simpa using hcs, .operand hfront, by simp [Text.Blank]⟩

/-- No expression starts with a blank. -/
theorem Derived.exists_cons {e : Expr} {cs : List Char} (h : e.Derived cs) :
    ∃ c tail, cs = c :: tail ∧ Text.isBlank c = false := by
  cases h with
  | operand h =>
    obtain ⟨c, tail, hcs, hc, -⟩ := exists_cons_of_derived h
    exact ⟨c, tail, hcs, hc⟩
  | call hname hblanks hargs =>
    obtain ⟨c, tail, rfl, hc⟩ := (Dotted.singleton_iff.mpr ⟨hname, rfl⟩).exists_cons
    exact ⟨c, _, rfl, isBlank_of_isPathChar (isPathChar_of_isIdentStart hc)⟩

/-- An expression is read from its whole text, with blanks around it. -/
theorem read?_of_written {e : Expr} {cs : List Char} (h : Written e cs) : read? cs = some e := by
  obtain ⟨before, core, after, rfl, hbefore, hcore, hafter⟩ := h
  have hrest : Text.trimLeft after = [] := Text.trimLeft_eq_nil_iff.mpr hafter
  have hends : Ends after := by
    rw [← List.append_nil after]
    refine ends_append hafter ?_
    rintro _ ⟨⟩
  obtain ⟨rest, hread, hblanks⟩ := expr?_of_derived hcore ⟨hends, by rw [hrest]; rfl⟩
  obtain ⟨c, tail, rfl, hc⟩ := hcore.exists_cons
  rw [read?, List.append_assoc, List.cons_append, Text.trimLeft_append_cons hbefore hc,
    ← List.cons_append, hread]
  simp [hblanks, hrest]

/-- What is read from a whole text is an expression with blanks around it. -/
theorem written_of_read? {e : Expr} {cs : List Char} (h : read? cs = some e) : Written e cs := by
  unfold read? at h
  split at h
  · next e' rest hexpr =>
    split at h
    · next hempty =>
      cases h
      obtain ⟨before, hbefore, hcs⟩ := Text.exists_blank_append_trimLeft cs
      obtain ⟨front, blanks, htrim, hfront, hblanks⟩ := derived_of_expr? hexpr
      have hrest : Text.Blank rest := Text.trimLeft_eq_nil_iff.mp (List.isEmpty_iff.mp hempty)
      refine ⟨before, front, blanks ++ rest, ?_, hbefore, hfront,
        List.forall_mem_append.mpr ⟨hblanks, hrest⟩⟩
      rw [hcs, htrim]
      simp
    · cases h
  · cases h

/-- The expression of a whole text is the only one that the grammar knows for it. -/
theorem read_iff_written (cs : List Char) :
    (∀ e, read? cs = some e ↔ Written e cs) ∧ {e | Written e cs}.Subsingleton := by
  refine ⟨fun e => ⟨written_of_read?, read?_of_written⟩, fun e he e' he' => ?_⟩
  have hread := read?_of_written he
  rw [read?_of_written he'] at hread
  exact (Option.some.inj hread).symm

end Expr
end LiveMarkup
