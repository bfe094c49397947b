import LiveMarkup.Proofs.Template.Sources
import LiveMarkup.Proofs.Template.Offsets

/-!
# Reading undoes writing

A template can be written mark by mark: plain text, placeholders around any source of an
expression, and block tags in any spelling.  Reading the whole text gives the marks back, provided
that plain text holds nothing that opens a mark, runs of plain text do not meet, and no run before a
tag ends in a character that would open a mark together with the brace of the tag.

Main definitions:

- `Mark.Opens`: two characters that open a mark.
- `Mark.Written`: a mark that is read back when it stands alone.
- `Mark.Parted`: two marks that do not run into each other.

Main results:

- `Mark.ofChars_flatMap_chars`: the marks of a written text are the marks that were written.
- `Segment.outside_of_reads`: marks that segments stand for are read as these segments.
- `Segment.ofText_flatMap_chars`: a written template is read as just its segments.
-/

namespace LiveMarkup

/-! ## Marks -/

namespace Mark

/-- Two characters next to each other open a placeholder or a tag. -/
def Opens (c d : Char) : Prop :=
  (c = '#' ∨ c = '\x7b') ∧ d = '\x7b'

/-- A mark that is read back when it stands alone: plain text that is not empty and holds nothing
that opens a mark, a placeholder around the source of an expression, and a tag that is read to the
very end of its text. -/
def Written : Mark → Prop
  | .plain run => run ≠ [] ∧ ¬ ['#', '\x7b'] <:+: run ∧ ¬ ['\x7b', '\x7b'] <:+: run
  | .placeholder source => ∃ e, Expr.read? source = some e
  | .tag inner t => tag? (inner ++ ['\x7d', '\x7d']) = some (inner, t, [])

/-- Two marks that do not run into each other: not two runs of plain text, and not a run before a
tag that ends in a number sign or an opening brace. -/
def Parted : Mark → Mark → Prop
  | .plain _, .plain _ => False
  | .plain run, .tag _ _ => run.getLast? ≠ some '#' ∧ run.getLast? ≠ some '\x7b'
  | _, _ => True

theorem isChain_of_not_infix {run : List Char} (hplaceholder : ¬ ['#', '\x7b'] <:+: run)
    (htag : ¬ ['\x7b', '\x7b'] <:+: run) : run.IsChain fun c d => ¬ Opens c d := by
  induction run with
  | nil => exact .nil
  | cons c run ih =>
    rw [List.isChain_cons]
    refine ⟨?_, ih (fun h => hplaceholder (List.infix_cons h)) fun h => htag (List.infix_cons h)⟩
    rintro d hd ⟨rfl | rfl, rfl⟩
    · obtain ⟨rest, rfl⟩ := List.head?_eq_some_iff.mp hd
      exact hplaceholder ⟨[], rest, rfl⟩
    · obtain ⟨rest, rfl⟩ := List.head?_eq_some_iff.mp hd
      exact htag ⟨[], rest, rfl⟩

/-- A character that opens no mark together with the next one is plain text. -/
theorem ofChars_cons {c : Char} {rest : List Char} (h : ∀ d ∈ rest.head?, ¬ Opens c d) :
    ofChars (c :: rest) = consPlain c (ofChars rest) := by
  rw [ofChars.eq_def]
  split
  · next heq => cases heq
  · next heq =>
    cases heq
    exact absurd ⟨.inl rfl, rfl⟩ (h '\x7b' rfl)
  · next heq =>
    cases heq
    exact absurd ⟨.inr rfl, rfl⟩ (h '\x7b' rfl)
  · next heq =>
    cases heq
    rfl

theorem consPlain_of_not_isPlain {marks : List Mark} (h : ∀ m ∈ marks.head?, m.isPlain = false)
    (c : Char) : consPlain c marks = .plain [c] :: marks := by
  unfold consPlain
  split
  · next run rest =>
    have hplain := h (.plain run) rfl
    cases hplain
  · rfl

/-- A run of plain text in which no mark opens, nor at its end, is put before the marks of what
follows. -/
theorem ofChars_append_foldr {run rest : List Char}
    (hopens : (run ++ rest.head?.toList).IsChain fun c d => ¬ Opens c d) :
    ofChars (run ++ rest) = run.foldr consPlain (ofChars rest) := by
  induction run with
  | nil => rfl
  | cons c run ih =>
    rw [List.cons_append, List.isChain_cons] at hopens
    obtain ⟨hfirst, hopens⟩ := hopens
    have hhead : ∀ d ∈ (run ++ rest).head?, ¬ Opens c d := by
      intro d hd
      apply hfirst d
      cases run with
      | nil => simpa using hd
      | cons _ _ => exact hd
    rw [List.cons_append, ofChars_cons hhead, ih hopens, List.foldr_cons]

theorem foldr_consPlain {run : List Char} (hne : run ≠ []) {marks : List Mark}
    (h : ∀ m ∈ marks.head?, m.isPlain = false) :
    run.foldr consPlain marks = .plain run :: marks := by
  induction run with
  | nil => exact absurd rfl hne
  | cons c run ih =>
    cases run with
    | nil => exact consPlain_of_not_isPlain h c
    | cons d run => rw [List.foldr_cons, ih (List.cons_ne_nil d run), consPlain]

/-- A run of plain text is a mark of its own, if neither inside it nor at its end a mark opens and
what follows does not start with plain text. -/
theorem ofChars_append {run rest : List Char} (hne : run ≠ [])
    (hopens : (run ++ rest.head?.toList).IsChain fun c d => ¬ Opens c d)
    (hrest : ∀ m ∈ (ofChars rest).head?, m.isPlain = false) :
    ofChars (run ++ rest) = .plain run :: ofChars rest := by
  rw [ofChars_append_foldr hopens, foldr_consPlain hne hrest]

/-- A placeholder that ends is a mark. -/
theorem ofChars_of_placeholder? {rest source after : List Char}
    (h : placeholder? rest = some (source, after)) :
    ofChars ('#' :: '\x7b' :: rest) = .placeholder source :: ofChars after := by
  rw [ofChars]
  split
  · next hfound =>
    cases h.symm.trans hfound
    rfl
  · next hnone => cases h.symm.trans hnone

/-- A block tag is a mark. -/
theorem ofChars_of_tag? {rest inner after : List Char} {t : Tag}
    (h : tag? rest = some (inner, t, after)) :
    ofChars ('\x7b' :: '\x7b' :: rest) = .tag inner t :: ofChars after := by
  rw [ofChars]
  split
  · next hfound =>
    cases h.symm.trans hfound
    rfl
  · next hnone => cases h.symm.trans hnone

/-- Two opening braces that start no tag are plain text, both of them. -/
theorem ofChars_of_tag?_eq_none {rest : List Char} (h : tag? rest = none) :
    ofChars ('\x7b' :: '\x7b' :: rest) =
      consPlain '\x7b' (consPlain '\x7b' (ofChars rest)) := by
  rw [ofChars]
  split
  · next hfound => cases h.symm.trans hfound
  · rfl

theorem ofChars_placeholder {source : List Char} (h : (placeholder source).Written)
    (rest : List Char) :
    ofChars ((placeholder source).chars ++ rest) = .placeholder source :: ofChars rest := by
  obtain ⟨e, he⟩ := h
  rw [← ofChars_of_placeholder? (placeholder?_of_read? he rest)]
  simp [chars]

theorem ofChars_tag {inner : List Char} {t : Tag} (h : (tag inner t).Written)
    (rest : List Char) :
    ofChars ((tag inner t).chars ++ rest) = .tag inner t :: ofChars rest := by
  have hends := exact_of_tag? h
  rw [Exact] at hends
  rw [← ofChars_of_tag? (hends rest)]
  simp [chars]

/-- No mark opens at the end of a run with the first character of the mark behind it. -/
theorem isChain_append_head? {run : List Char} {m : Mark} (hrun : (plain run).Written)
    (hm : Parted (.plain run) m) (rest : List Char) :
    (run ++ (m.chars ++ rest).head?.toList).IsChain fun c d => ¬ Opens c d := by
  have hinside := isChain_of_not_infix hrun.2.1 hrun.2.2
  cases m with
  | plain other => exact hm.elim
  | placeholder source =>
    refine List.isChain_append.mpr ⟨hinside, .singleton _, ?_⟩
    rintro c - d hd ⟨-, rfl⟩
    cases hd
  | tag inner t =>
    refine List.isChain_append.mpr ⟨hinside, .singleton _, ?_⟩
    rintro c hc d - ⟨rfl | rfl, -⟩
    · exact hm.1 hc
    · exact hm.2 hc

/-- The marks of a written text are the marks that were written. -/
theorem ofChars_flatMap_chars {marks : List Mark} (hwritten : ∀ m ∈ marks, m.Written)
    (hparted : marks.IsChain Parted) : ofChars (marks.flatMap chars) = marks := by
  induction marks with
  | nil => rw [List.flatMap_nil, ofChars]
  | cons m marks ih =>
    rw [List.forall_mem_cons] at hwritten
    obtain ⟨hm, hwritten⟩ := hwritten
    obtain ⟨hnext, hparted⟩ := List.isChain_cons.mp hparted
    have hmarks := ih hwritten hparted
    rw [List.flatMap_cons]
    cases m with
    | plain run =>
      rw [chars, ofChars_append hm.1, hmarks]
      · cases marks with
        | nil => simpa using isChain_of_not_infix hm.2.1 hm.2.2
        | cons m marks => exact isChain_append_head? hm (hnext m rfl) _
      · intro m hfirst
        rw [hmarks] at hfirst
        cases m with
        | plain other => exact (hnext (.plain other) hfirst).elim
        | placeholder source => rfl
        | tag inner t => rfl
    | placeholder source => rw [ofChars_placeholder hm, hmarks]
    | tag inner t => rw [ofChars_tag hm, hmarks]

end Mark

/-! ## Segments -/

namespace Segment

/-- Marks that segments stand for are read as these segments, at any offset. -/
theorem outside_of_reads {marks : List Mark} {segments : List Segment}
    (h : Reads marks segments) (offset : Nat) : outside offset marks = .ok segments := by
  have hall := outside_append h offset []
  rw [List.append_nil, outside] at hall
  simpa [Except.map] using hall

/-- Reading a template undoes writing it.  The marks are written one after the other: literals,
placeholders and whole blocks, as the segments have them.  If each mark is read back alone and no
two of them run into each other, the text is read as just these segments. -/
theorem ofText_flatMap_chars {marks : List Mark} {segments : List Segment}
    (hsegments : Reads marks segments) (hwritten : ∀ m ∈ marks, m.Written)
    (hparted : marks.IsChain Mark.Parted) :
    ofText (String.ofList (marks.flatMap Mark.chars)) = .ok segments := by
  rw [ofText, String.toList_ofList, Mark.ofChars_flatMap_chars hwritten hparted]
  exact outside_of_reads hsegments 0

/-- A call with braces and an escaped quote inside its strings, after a number sign; a block whose
tags have blanks in them, with closing and opening braces for text next to its marks. -/
theorem ofText_flatMap_chars_of_braces :
    let marks : List Mark := [.plain "#".toList,
      .placeholder " f('\x7d', \"\\\"\x7b\x7b\", -7) ".toList,
      .tag "\t each\u00a0 a.0 ".toList (.opening eachName ["a", "0"]),
      .plain "\x7d\x7d# \x7b".toList, .placeholder "true".toList, .plain "/".toList,
      .tag "/ each".toList (.closing eachName)]
    let segments := [.piece (.literal "#"),
      .piece (.placeholder (.call "f" [.literal (.str "\x7d"), .literal (.str "\"\x7b\x7b"),
        .literal (.int (-7))])),
      .each ["a", "0"] [.literal "\x7d\x7d# \x7b", .placeholder (.operand (.literal (.bool true))),
        .literal "/"]]
    Reads marks segments ∧ (∀ m ∈ marks, m.Written) ∧ marks.IsChain Mark.Parted ∧
      ofText (String.ofList (marks.flatMap Mark.chars)) = .ok segments := by
  intro marks segments
  have hcall : Expr.read? " f('\x7d', \"\\\"\x7b\x7b\", -7) ".toList =
      some (.call "f" [.literal (.str "\x7d"), .literal (.str "\"\x7b\x7b"),
        .literal (.int (-7))]) := by cbv
  have htrue : Expr.read? "true".toList = some (.operand (.literal (.bool true))) := by cbv
  have hopening : (Mark.tag "\t each\u00a0 a.0 ".toList (.opening eachName ["a", "0"])).Written := by
    rw [Mark.Written]
    cbv
  have hclosing : (Mark.tag "/ each".toList (.closing eachName)).Written := by
    rw [Mark.Written]
    cbv
  have hsegments : Reads marks segments :=
    .piece (.literal _) (.piece (.placeholder hcall) (.each
      (.cons (.literal _) (.cons (.placeholder htrue) (.cons (.literal _) .nil))) .nil))
  have hwritten : ∀ m ∈ marks, m.Written := by
    simp only [marks, List.forall_mem_cons]
    refine ⟨?_, ⟨_, hcall⟩, hopening, ?_, ⟨_, htrue⟩, ?_, hclosing, by simp⟩
    all_goals
      rw [Mark.Written]
      decide +kernel
  have hparted : marks.IsChain Mark.Parted := by
    simp [marks, Mark.Parted]
  exact ⟨hsegments, hwritten, hparted, ofText_flatMap_chars hsegments hwritten hparted⟩

end Segment
end LiveMarkup
