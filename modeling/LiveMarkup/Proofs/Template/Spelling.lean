import LiveMarkup.Template.Segment
import Mathlib

/-!
# How templates are spelled

Reading a template text loses nothing of it: the segments are spelled, one after the other, by
consecutive pieces of the text.  A literal spells itself, a placeholder is spelled with the source of
its expression, and a block with an opening tag, its body and a closing tag.

Main definitions:

- `Mark.Exact`, `Mark.Apart`: marks that stand on their own, and runs of plain text that do not meet.
- `Segment.Reads`: the segments that marks are read as, without offsets and errors.
- `Tag.Spelled`, `Piece.Spelled`, `Segment.Spelled`: the texts that spell tags, pieces and segments.
- `Piece.Tidy`, `Segment.Tidy`: no literal is empty or stands next to another.

Main results:

- `Mark.exact_ofChars`: the marks of a text are exact, and no two runs of plain text meet.
- `Segment.reads_of_outside`, `Segment.reads_of_inside`: successful reading, once and for all.
- `Segment.ofText_lossless`: the segments of a text spell it.
-/

namespace LiveMarkup

/-! ## Marks -/

namespace Mark

/-- Whether a mark is a run of plain text. -/
def isPlain : Mark → Bool
  | .plain _ => true
  | _ => false

/-- A mark that stands on its own: a run of plain text is not empty, and a tag is read up to just
its closing braces, whatever follows. -/
def Exact : Mark → Prop
  | .plain run => run ≠ []
  | .placeholder _ => True
  | .tag inner t => ∀ rest, tag? (inner ++ '\x7d' :: '\x7d' :: rest) = some (inner, t, rest)

/-- No two runs of plain text meet. -/
def Apart (marks : List Mark) : Prop :=
  marks.IsChain fun a b => ¬ (a.isPlain = true ∧ b.isPlain = true)

/-- The first pair of closing braces does not depend on what follows it. -/
theorem closePair?_append {cs inner rest : List Char} (h : closePair? cs = some (inner, rest))
    (rest' : List Char) :
    closePair? (inner ++ '\x7d' :: '\x7d' :: rest') = some (inner, rest') := by
  fun_induction closePair? cs generalizing inner rest with
  | case1 => cases h
  | case2 => cases h
  | case3 c d tail hpair =>
    cases h
    simp [closePair?]
  | case4 c d tail hpair ih =>
    obtain ⟨⟨front, back⟩, hclose, heq⟩ := Option.map_eq_some_iff.mp h
    cases heq
    have hcs := eq_of_closePair? hclose
    have htail := ih hclose
    cases front with
    | nil =>
      rw [List.nil_append, List.cons.injEq] at hcs
      have hc : c ≠ '\x7d' := fun heq => hpair ⟨heq, hcs.1⟩
      simp [closePair?, hc]
    | cons e front =>
      rw [List.cons_append, List.cons.injEq] at hcs
      obtain ⟨rfl, -⟩ := hcs
      simp only [List.cons_append] at htail ⊢
      rw [closePair?, if_neg hpair, htail, Option.map_some]

/-- A tag that was read is read again, whatever follows. -/
theorem exact_of_tag? {cs inner rest : List Char} {t : Tag}
    (h : tag? cs = some (inner, t, rest)) : (tag inner t).Exact := by
  unfold tag? at h
  split at h
  · cases h
  · next front back hclose =>
    obtain ⟨found, hfound, heq⟩ := Option.map_eq_some_iff.mp h
    cases heq
    rw [Exact]
    intro rest'
    rw [tag?, closePair?_append hclose rest']
    simp [hfound]

theorem exact_consPlain (c : Char) {marks : List Mark} (h : ∀ m ∈ marks, m.Exact) :
    ∀ m ∈ consPlain c marks, m.Exact := by
  unfold consPlain
  split
  · next run rest =>
    rw [List.forall_mem_cons] at h ⊢
    exact ⟨by simp [Exact], h.2⟩
  · rw [List.forall_mem_cons]
    exact ⟨by simp [Exact], h⟩

theorem apart_consPlain (c : Char) {marks : List Mark} (h : Apart marks) :
    Apart (consPlain c marks) := by
  unfold consPlain
  split
  · next run rest =>
    unfold Apart at h ⊢
    rw [List.isChain_cons] at h ⊢
    exact ⟨fun m hm hplain => h.1 m hm hplain, h.2⟩
  · next hnot =>
    unfold Apart at h ⊢
    rw [List.isChain_cons]
    refine ⟨?_, h⟩
    rintro m hm ⟨-, hplain⟩
    cases m with
    | plain run =>
      obtain ⟨rest, hrest⟩ : ∃ rest, marks = .plain run :: rest := by
        cases marks with
        | nil => cases hm
        | cons first rest =>
          cases hm
          exact ⟨rest, rfl⟩
      exact hnot run rest hrest
    | placeholder source => cases hplain
    | tag inner tag => cases hplain

/-- The marks of a text are exact, and no two runs of plain text meet. -/
theorem exact_ofChars (cs : List Char) : (∀ m ∈ ofChars cs, m.Exact) ∧ Apart (ofChars cs) := by
  fun_induction ofChars cs with
  | case1 => exact ⟨by simp, .nil⟩
  | case2 rest source after h ih =>
    refine ⟨List.forall_mem_cons.mpr ⟨by simp [Exact], ih.1⟩, List.isChain_cons.mpr ⟨?_, ih.2⟩⟩
    rintro m - ⟨hplain, -⟩
    cases hplain
  | case3 rest => exact ⟨by simp [Exact], .singleton _⟩
  | case4 rest inner t after h ih =>
    refine ⟨List.forall_mem_cons.mpr ⟨exact_of_tag? h, ih.1⟩, List.isChain_cons.mpr ⟨?_, ih.2⟩⟩
    rintro m - ⟨hplain, -⟩
    cases hplain
  | case5 rest h ih =>
    exact ⟨exact_consPlain _ (exact_consPlain _ ih.1), apart_consPlain _ (apart_consPlain _ ih.2)⟩
  | case6 c rest _ _ ih => exact ⟨exact_consPlain c ih.1, apart_consPlain c ih.2⟩

end Mark

/-! ## Reading marks -/

/-- The piece that a mark is read as. -/
inductive Piece.OfMark : Mark → Piece → Prop where
  | literal (run : List Char) : OfMark (.plain run) (.literal (String.ofList run))
  | placeholder {source : List Char} {e : Expr} (h : Expr.read? source = some e) :
    OfMark (.placeholder source) (.placeholder e)

namespace Segment

/-- The segments that marks are read as: offsets and errors aside, how `outside` and `inside` go
on together. -/
inductive Reads : List Mark → List Segment → Prop where
  | nil : Reads [] []
  | piece {m : Mark} {p : Piece} {marks : List Mark} {segments : List Segment}
      (hpiece : Piece.OfMark m p) (hrest : Reads marks segments) :
      Reads (m :: marks) (.piece p :: segments)
  | each {inner inner' : List Char} {path : List String} {marks rest : List Mark}
      {body : List Piece} {segments : List Segment} (hbody : List.Forall₂ Piece.OfMark marks body)
      (hrest : Reads rest segments) :
      Reads (.tag inner (.opening eachName path) :: (marks ++ .tag inner' (.closing eachName) :: rest))
        (.each path body :: segments)

mutual

/-- Marks that are read successfully outside a block. -/
theorem reads_of_outside : ∀ {offset : Nat} {marks : List Mark} {segments : List Segment},
    outside offset marks = .ok segments → Reads marks segments
  | _, [], _, h => by
    cases h
    exact .nil
  | offset, .plain run :: rest, _, h => by
    rw [outside] at h
    split at h
    · next segments hrest =>
      cases h
      exact .piece (.literal run) (reads_of_outside hrest)
    · cases h
  | offset, .placeholder source :: rest, _, h => by
    rw [outside] at h
    split at h
    · cases h
    · next e he =>
      split at h
      · next segments hrest =>
        cases h
        exact .piece (.placeholder he) (reads_of_outside hrest)
      · cases h
  | offset, .tag inner (.opening name path) :: rest, _, h => by
    rw [outside] at h
    split at h
    · next hname =>
      subst hname
      split at h
      · next body segments hinside =>
        cases h
        obtain ⟨marks, inner', after, rfl, hbody, hafter⟩ := reads_of_inside hinside
        exact .each hbody hafter
      · cases h
    · cases h
  | _, .tag _ (.closing _) :: _, _, h => by
    rw [outside] at h
    cases h

/-- Marks that are read successfully inside a block: the body ends at a closing tag. -/
theorem reads_of_inside : ∀ {start offset : Nat} {marks : List Mark} {body : List Piece}
    {segments : List Segment}, inside start offset marks = .ok (body, segments) →
    ∃ front inner after, marks = front ++ .tag inner (.closing eachName) :: after ∧
      List.Forall₂ Piece.OfMark front body ∧ Reads after segments
  | _, _, [], _, _, h => by
    rw [inside] at h
    cases h
  | start, offset, .plain run :: rest, _, _, h => by
    rw [inside] at h
    split at h
    · next body segments hrest =>
      cases h
      obtain ⟨front, inner, after, rfl, hbody, hafter⟩ := reads_of_inside hrest
      exact ⟨_, inner, after, rfl, .cons (.literal run) hbody, hafter⟩
    · cases h
  | start, offset, .placeholder source :: rest, _, _, h => by
    rw [inside] at h
    split at h
    · cases h
    · next e he =>
      split at h
      · next body segments hrest =>
        cases h
        obtain ⟨front, inner, after, rfl, hbody, hafter⟩ := reads_of_inside hrest
        exact ⟨_, inner, after, rfl, .cons (.placeholder he) hbody, hafter⟩
      · cases h
  | _, _, .tag _ (.opening _ _) :: _, _, _, h => by
    rw [inside] at h
    cases h
  | start, offset, .tag inner (.closing name) :: rest, _, _, h => by
    rw [inside] at h
    split at h
    · next hname =>
      subst hname
      split at h
      · next segments hrest =>
        cases h
        exact ⟨[], inner, rest, rfl, .nil, reads_of_outside hrest⟩
      · cases h
    · cases h

end

end Segment

/-! ## Spelling -/

/-- A text that is read as a tag, to its very end, whatever follows it. -/
def Tag.Spelled (tag : Tag) (cs : List Char) : Prop :=
  ∃ inner, cs = ['\x7b', '\x7b'] ++ inner ++ ['\x7d', '\x7d'] ∧
    ∀ rest, Mark.tag? (inner ++ ['\x7d', '\x7d'] ++ rest) = some (inner, tag, rest)

namespace Piece

/-- Whether a piece is a literal text. -/
def isLiteral : Piece → Bool
  | .literal _ => true
  | .placeholder _ => false

/-- A text that spells a piece: a literal is its own text, and a placeholder holds a source that is
read as its expression. -/
inductive Spelled : Piece → List Char → Prop where
  | literal (text : String) : Spelled (.literal text) text.toList
  | placeholder {source : List Char} {e : Expr} (h : Expr.read? source = some e) :
    Spelled (.placeholder e) (['#', '\x7b'] ++ source ++ ['\x7d'])

/-- No literal is empty, and no literal stands next to another. -/
def Tidy (pieces : List Piece) : Prop :=
  (∀ p ∈ pieces, p ≠ .literal "") ∧
    pieces.IsChain fun a b => ¬ (a.isLiteral = true ∧ b.isLiteral = true)

/-- A piece of a mark is spelled as the mark is written. -/
theorem OfMark.spelled {m : Mark} {p : Piece} (h : OfMark m p) : p.Spelled m.chars := by
  cases h with
  | literal run =>
    have hself := Spelled.literal (String.ofList run)
    rwa [String.toList_ofList] at hself
  | placeholder h => exact .placeholder h

/-- Plain marks become literals, and no others do. -/
theorem OfMark.isLiteral_eq {m : Mark} {p : Piece} (h : OfMark m p) : p.isLiteral = m.isPlain := by
  cases h <;> rfl

theorem OfMark.ne_literal {m : Mark} {p : Piece} (h : OfMark m p) (hm : m.Exact) :
    p ≠ .literal "" := by
  cases h with
  | literal run =>
    intro heq
    rw [Mark.Exact] at hm
    rw [Piece.literal.injEq, String.ofList_eq_empty_iff] at heq
    exact hm heq
  | placeholder _ => exact nofun

/-- The pieces of a body spell its marks. -/
theorem spelled_of_marks {marks : List Mark} {body : List Piece}
    (h : List.Forall₂ OfMark marks body) :
    ∃ texts, List.Forall₂ Spelled body texts ∧ marks.flatMap Mark.chars = texts.flatten := by
  induction h with
  | nil => exact ⟨[], .nil, rfl⟩
  | @cons m p _ _ hpiece _ ih =>
    obtain ⟨texts, hspelled, htexts⟩ := ih
    exact ⟨m.chars :: texts, .cons hpiece.spelled hspelled, by simp [htexts]⟩

/-- The pieces of marks that are read are tidy. -/
theorem tidy_of_marks {marks : List Mark} {body : List Piece}
    (h : List.Forall₂ OfMark marks body) (hexact : ∀ m ∈ marks, m.Exact)
    (hapart : Mark.Apart marks) : Tidy body := by
  induction h with
  | nil => exact ⟨by simp, .nil⟩
  | @cons m p marks body hpiece hbody ih =>
    rw [List.forall_mem_cons] at hexact
    obtain ⟨hfirst, hrest⟩ := List.isChain_cons.mp hapart
    obtain ⟨hne, hchain⟩ := ih hexact.2 hrest
    refine ⟨List.forall_mem_cons.mpr ⟨hpiece.ne_literal hexact.1, hne⟩,
      List.isChain_cons.mpr ⟨?_, hchain⟩⟩
    cases hbody with
    | nil => simp
    | @cons m' p' _ _ hpiece' _ =>
      rintro _ ⟨⟩
      rw [hpiece.isLiteral_eq, hpiece'.isLiteral_eq]
      exact hfirst m' rfl

end Piece

namespace Segment

/-- Whether a segment is a literal text. -/
def isLiteral : Segment → Bool
  | .piece p => p.isLiteral
  | .each _ _ => false

/-- A text that spells a segment: that of a piece, or an opening tag with the path, the texts of the
body one after the other, and a closing tag. -/
inductive Spelled : Segment → List Char → Prop where
  | piece {p : Piece} {cs : List Char} (h : p.Spelled cs) : Spelled (.piece p) cs
  | each {path : List String} {body : List Piece} {opening closing : List Char}
      {texts : List (List Char)} (hopening : (Tag.opening eachName path).Spelled opening)
      (hbody : List.Forall₂ Piece.Spelled body texts)
      (hclosing : (Tag.closing eachName).Spelled closing) :
      Spelled (.each path body) (opening ++ texts.flatten ++ closing)

/-- No literal is empty, and no literal stands next to another, neither among the segments nor in
the body of a block. -/
structure Tidy (segments : List Segment) : Prop where
  ne_literal : ∀ s ∈ segments, s ≠ .piece (.literal "")
  apart : segments.IsChain fun a b => ¬ (a.isLiteral = true ∧ b.isLiteral = true)
  bodies : ∀ path body, .each path body ∈ segments → Piece.Tidy body

/-- A tag that is read is spelled as it is written. -/
theorem spelled_tag {inner : List Char} {t : Tag} (h : (Mark.tag inner t).Exact) :
    t.Spelled (Mark.tag inner t).chars := by
  rw [Mark.Exact] at h
  exact ⟨inner, rfl, fun rest => by simpa using h rest⟩

/-- The segments that exact marks are read as spell them. -/
theorem Reads.spelled {marks : List Mark} {segments : List Segment} (h : Reads marks segments)
    (hexact : ∀ m ∈ marks, m.Exact) :
    ∃ texts, List.Forall₂ Spelled segments texts ∧ marks.flatMap Mark.chars = texts.flatten := by
  induction h with
  | nil => exact ⟨[], .nil, rfl⟩
  | @piece m p _ _ hpiece _ ih =>
    rw [List.forall_mem_cons] at hexact
    obtain ⟨texts, hspelled, htexts⟩ := ih hexact.2
    exact ⟨m.chars :: texts, .cons (.piece hpiece.spelled) hspelled, by simp [htexts]⟩
  | @each inner inner' path marks rest body _ hbody _ ih =>
    rw [List.forall_mem_cons, List.forall_mem_append, List.forall_mem_cons] at hexact
    obtain ⟨hopening, -, hclosing, hrest⟩ := hexact
    obtain ⟨inside, hinside, hmarks⟩ := Piece.spelled_of_marks hbody
    obtain ⟨texts, hspelled, htexts⟩ := ih hrest
    refine ⟨_ :: texts,
      .cons (.each (spelled_tag hopening) hinside (spelled_tag hclosing)) hspelled, ?_⟩
    simp [hmarks, htexts]

/-- The first segment is a literal just when the first mark is plain text. -/
theorem Reads.isLiteral_head? {marks : List Mark} {segments : List Segment}
    (h : Reads marks segments) :
    segments.head?.any isLiteral = marks.head?.any Mark.isPlain := by
  cases h with
  | nil => rfl
  | piece hpiece _ => exact hpiece.isLiteral_eq
  | each _ _ => rfl

/-- The segments that exact marks are read as are tidy, if no two runs of plain text meet. -/
theorem Reads.tidy {marks : List Mark} {segments : List Segment} (h : Reads marks segments)
    (hexact : ∀ m ∈ marks, m.Exact) (hapart : Mark.Apart marks) : Tidy segments := by
  induction h with
  | nil => exact ⟨by simp, .nil, by simp⟩
  | @piece m p marks segments hpiece hrest ih =>
    rw [List.forall_mem_cons] at hexact
    obtain ⟨hfirst, hchain⟩ := List.isChain_cons.mp hapart
    have htidy := ih hexact.2 hchain
    refine ⟨List.forall_mem_cons.mpr ⟨?_, htidy.ne_literal⟩,
      List.isChain_cons.mpr ⟨?_, htidy.apart⟩, ?_⟩
    · rw [Ne, Segment.piece.injEq]
      exact hpiece.ne_literal hexact.1
    · rintro s hs ⟨hp, hliteral⟩
      have hhead := hrest.isLiteral_head?
      rw [Option.mem_def.mp hs, Option.any_some, hliteral] at hhead
      cases hm' : marks.head? with
      | none =>
        rw [hm'] at hhead
        cases hhead
      | some m' =>
        rw [hm'] at hhead
        exact hfirst m' hm' ⟨hpiece.isLiteral_eq ▸ hp, hhead.symm⟩
    · intro path body hmem
      rw [List.mem_cons] at hmem
      rcases hmem with heq | hmem
      · cases heq
      · exact htidy.bodies path body hmem
  | @each inner inner' path marks rest body segments hbody hrest ih =>
    rw [List.forall_mem_cons, List.forall_mem_append, List.forall_mem_cons] at hexact
    obtain ⟨-, hinside, -, hafter⟩ := hexact
    obtain ⟨hmarks, hclosing, -⟩ := List.isChain_append.mp (List.isChain_cons.mp hapart).2
    have htidy := ih hafter (List.isChain_cons.mp hclosing).2
    refine ⟨List.forall_mem_cons.mpr ⟨nofun, htidy.ne_literal⟩,
      List.isChain_cons.mpr ⟨?_, htidy.apart⟩, ?_⟩
    · rintro s - ⟨hliteral, -⟩
      cases hliteral
    · intro path' body' hmem
      rw [List.mem_cons] at hmem
      rcases hmem with heq | hmem
      · cases heq
        exact Piece.tidy_of_marks hbody hinside hmarks
      · exact htidy.bodies path' body' hmem

/-- Reading a template loses nothing of its text: the segments spell consecutive pieces of it, one
each and in order, and they are tidy.  By their type all blocks are `each` blocks, and their bodies
hold literals and placeholders only. -/
theorem ofText_lossless {text : String} {segments : List Segment}
    (h : ofText text = .ok segments) :
    (∃ texts, List.Forall₂ Spelled segments texts ∧ text.toList = texts.flatten) ∧
      Tidy segments := by
  have hreads := reads_of_outside h
  obtain ⟨hexact, hapart⟩ := Mark.exact_ofChars text.toList
  obtain ⟨texts, hspelled, htexts⟩ := hreads.spelled hexact
  rw [Mark.flatMap_chars_ofChars] at htexts
  exact ⟨⟨texts, hspelled, htexts⟩, hreads.tidy hexact hapart⟩

/-- Double braces that start no tag, a third closing brace after a tag, blanks inside marks, a
number sign before a placeholder, a quoted closing brace and a placeholder that never ends. -/
theorem ofText_lossless_beside_half_marks :
    let text := "a\x7b\x7bb#\x7b x \x7d\x7b\x7beach items\x7d\x7d\x7d<li>#\x7btitle\x7d" ++
      "\x7b\x7b/each \x7d\x7d##\x7b'\x7d'\x7d#\x7b"
    let segments := [.piece (.literal "a\x7b\x7bb"),
      .piece (.placeholder (.operand (.path ["x"]))),
      .each ["items"] [.literal "\x7d<li>", .placeholder (.operand (.path ["title"]))],
      .piece (.literal "#"), .piece (.placeholder (.operand (.literal (.str "\x7d")))),
      .piece (.literal "#\x7b")]
    ofText text = .ok segments ∧
      (∃ texts, List.Forall₂ Spelled segments texts ∧ text.toList = texts.flatten) ∧
      Tidy segments := by
  intro text segments
  have hread : ofText text = .ok segments := by cbv
  exact ⟨hread, ofText_lossless hread⟩

end Segment
end LiveMarkup
