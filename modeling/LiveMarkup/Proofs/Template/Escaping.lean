import LiveMarkup.Proofs.Html.References
import LiveMarkup.Proofs.Template.Compilation
import LiveMarkup.Proofs.Template.Spelling
import LiveMarkup.Sample

/-!
# Escaping

What a template shows falls into chunks, literals of its text and texts of values, and the chunks
are the same whether values are escaped or not.  An escaped text holds no character that markup
could take for its own, and when its character references are decoded it is the text again.  So with
escaping on, all such characters of the output stand in the template itself.

Main definitions:

- `Html.Reference.read?`, `Html.Reference.decode`: a text with its character references decoded.
- `Chunk.markupChars`: the characters that open and close tags and attribute values.
- `Piece.literals`, `Segment.literals`, `Template.literals`: the literals in a template.

Main results:

- `Chunk.decode_escape`: decoding undoes escaping.
- `Chunk.notMem_of_mem_escape`: no character of markup is left in an escaped text.
- `Segment.infix_of_mem_literals`: the literals of a text stand in it.
- `Template.escaping_keeps_to_values`: escaping changes all values and only values.
-/

namespace LiveMarkup

/-! ## Decoding -/

namespace Html
namespace Reference

/-- What follows the digits of a number, which may be hexadecimal. -/
def afterNumber (written : List Char) : List Char :=
  (base written).2.dropWhile fun c => (digit? (base written).1 c).isSome

/-- A text without a semicolon at its start. -/
def dropSemicolon : List Char → List Char
  | ';' :: rest => rest
  | rest => rest

/-- The characters of the reference that a text starts with, after its `&`, and what follows the
reference.  A number may stand without its semicolon, and so may the oldest names. -/
def read? : List Char → Option (List Char × List Char)
  | '#' :: written =>
    (number? (written.take (written.length - (afterNumber written).length))).map fun n =>
      ([numbered n], dropSemicolon (afterNumber written))
  | cs => (longest? cs).map fun r => r.2

example : read? "#x3C>".toList = some (['<'], ">".toList) ∧ read? "unknown;".toList = none ∧
    read? "notit".toList = some (['\u00ac'], "it".toList) ∧
    read? "nGt;".toList = some (['\u226b', '\u20d2'], []) := by
  decide +kernel

theorem length_afterNumber_le (written : List Char) :
    (afterNumber written).length ≤ written.length := by
  have hbase : (base written).2.length ≤ written.length := by
    unfold base
    split <;> simp
  exact (List.dropWhile_sublist _).length_le.trans hbase

theorem length_dropSemicolon_le (cs : List Char) : (dropSemicolon cs).length ≤ cs.length := by
  unfold dropSemicolon
  split <;> simp

/-- No more is left behind a reference than there was. -/
theorem length_read?_le {cs text after : List Char} (h : read? cs = some (text, after)) :
    after.length ≤ cs.length := by
  unfold read? at h
  split at h
  · next written =>
    obtain ⟨n, -, heq⟩ := Option.map_eq_some_iff.mp h
    cases heq
    calc (dropSemicolon (afterNumber written)).length
        ≤ (afterNumber written).length := length_dropSemicolon_le _
      _ ≤ written.length := length_afterNumber_le written
      _ ≤ ('#' :: written).length := Nat.le_succ _
  · obtain ⟨⟨name, text', rest⟩, hlongest, heq⟩ := Option.map_eq_some_iff.mp h
    obtain ⟨entry, -, hentry⟩ := Option.map_eq_some_iff.mp hlongest
    cases heq
    cases hentry
    rw [List.length_drop]
    exact Nat.sub_le _ _

/-- The number of the apostrophe is read as an apostrophe. -/
theorem read?_apostrophe (rest : List Char) :
    read? ('#' :: '3' :: '9' :: ';' :: rest) = some (['\''], rest) := by
  have hafter : afterNumber ('3' :: '9' :: ';' :: rest) = ';' :: rest := rfl
  have hwritten : ('3' :: '9' :: ';' :: rest).take
      (('3' :: '9' :: ';' :: rest).length - (';' :: rest).length) = ['3', '9'] := by
    simp
  rw [read?, hafter, hwritten]
  rfl

/-- A reference by a complete name, whatever follows it. -/
theorem read?_of_written {name : List Char} {c : Char} (h : (name, c) ∈ writtenNames)
    (rest : List Char) : read? (name ++ rest) = some ([c], rest) := by
  have hnumber : ∀ written, name ++ rest ≠ '#' :: written := by
    simp only [writtenNames, List.mem_cons, Prod.mk.injEq, List.not_mem_nil, or_false] at h
    rcases h with ⟨rfl, -⟩ | ⟨rfl, -⟩ | ⟨rfl, -⟩ | ⟨rfl, -⟩ | ⟨rfl, -⟩ <;> simp
  rw [read?, (complete_of_written h).longest?_append]
  · rfl
  · exact hnumber

/-- A text with its character references decoded. -/
def decode (cs : List Char) : List Char :=
  match cs with
  | [] => []
  | '&' :: rest =>
    match _h : read? rest with
    | some (text, after) => text ++ decode after
    | none => '&' :: decode rest
  | c :: rest => c :: decode rest
termination_by cs.length
decreasing_by
  · have := length_read?_le _h
    simp only [List.length_cons]
    omega
  · simp
  · simp

/-- A reference is decoded as what it is read as. -/
theorem decode_of_read? {rest text after : List Char} (h : read? rest = some (text, after)) :
    decode ('&' :: rest) = text ++ decode after := by
  rw [decode]
  split
  · next hfound =>
    cases h.symm.trans hfound
    rfl
  · next hnone => cases h.symm.trans hnone

/-- Anything but an ampersand is decoded as itself. -/
theorem decode_cons {c : Char} (hc : c ≠ '&') (rest : List Char) :
    decode (c :: rest) = c :: decode rest := by
  rw [decode]
  rintro rfl
  exact hc rfl

end Reference
end Html

/-! ## Chunks -/

/-- Where a part of a text made of several comes from: it begins inside one of them. -/
theorem exists_of_flatMap_eq {α β : Type} {f : α → List β} {xs : List α} {before after : List β}
    {b : β} (h : xs.flatMap f = before ++ b :: after) :
    ∃ front x back left right, xs = front ++ x :: back ∧ f x = left ++ b :: right ∧
      before = front.flatMap f ++ left ∧ after = right ++ back.flatMap f := by
  induction xs generalizing before with
  | nil => simp at h
  | cons x xs ih =>
    rw [List.flatMap_cons, List.append_eq_append_iff] at h
    rcases h with ⟨middle, hbefore, hrest⟩ | ⟨middle, hx, hrest⟩
    · obtain ⟨front, y, back, left, right, rfl, hy, rfl, hafter⟩ := ih hrest
      exact ⟨x :: front, y, back, left, right, rfl, hy, by simp [hbefore], hafter⟩
    · cases middle with
      | nil =>
        have hnext : xs.flatMap f = [] ++ b :: after := hrest.symm
        obtain ⟨front, y, back, left, right, rfl, hy, hleft, hafter⟩ := ih hnext
        refine ⟨x :: front, y, back, left, right, rfl, hy, ?_, hafter⟩
        rw [List.append_nil] at hx
        rw [List.flatMap_cons, List.append_assoc, ← hleft, hx, List.append_nil]
      | cons c middle =>
        cases hrest
        exact ⟨[], x, xs, before, middle, rfl, hx, rfl, rfl⟩

namespace Chunk

/-- The characters that open and close tags and attribute values. -/
def markupChars : List Char :=
  ['<', '>', '"', '\'']

/-- Decoding undoes the escape of a character. -/
theorem decode_escapeChar (c : Char) (rest : List Char) :
    Html.Reference.decode (escapeChar c ++ rest) = c :: Html.Reference.decode rest := by
  unfold escapeChar
  split
  · exact Html.Reference.decode_of_read? (Html.Reference.read?_of_written (by decide) rest)
  · exact Html.Reference.decode_of_read? (Html.Reference.read?_of_written (by decide) rest)
  · exact Html.Reference.decode_of_read? (Html.Reference.read?_of_written (by decide) rest)
  · exact Html.Reference.decode_of_read? (Html.Reference.read?_of_written (by decide) rest)
  · exact Html.Reference.decode_of_read? (Html.Reference.read?_apostrophe rest)
  · next hamp _ _ _ _ => exact Html.Reference.decode_cons hamp rest

/-- Decoding undoes escaping, also of texts that look like references themselves. -/
theorem decode_escape (s : String) :
    Html.Reference.decode (escape s).toList = s.toList := by
  rw [escape, String.toList_ofList]
  induction s.toList with
  | nil => rw [List.flatMap_nil, Html.Reference.decode]
  | cons c cs ih => rw [List.flatMap_cons, decode_escapeChar, ih]

/-- No character of markup is left in an escaped text. -/
theorem notMem_of_mem_escape {s : String} {c : Char} (h : c ∈ (escape s).toList) :
    c ∉ markupChars := by
  rw [escape, String.toList_ofList, List.mem_flatMap] at h
  obtain ⟨d, -, hc⟩ := h
  unfold escapeChar at hc
  split at hc <;> simp only [List.mem_cons, List.not_mem_nil, or_false] at hc
  · rcases hc with rfl | rfl | rfl | rfl | rfl <;> decide
  · rcases hc with rfl | rfl | rfl | rfl <;> decide
  · rcases hc with rfl | rfl | rfl | rfl <;> decide
  · rcases hc with rfl | rfl | rfl | rfl | rfl | rfl <;> decide
  · rcases hc with rfl | rfl | rfl | rfl | rfl <;> decide
  · next hlt hgt hdouble hsingle =>
    subst hc
    simp only [markupChars, List.mem_cons, List.not_mem_nil, or_false, not_or]
    exact ⟨hlt, hgt, hdouble, hsingle⟩

/-- A character of markup in the output, with values escaped, stands in a literal. -/
theorem exists_literal_of_join_eq {chunks : List Chunk} {before after : List Char} {c : Char}
    (hc : c ∈ markupChars)
    (h : (Render.join true chunks).toList = before ++ c :: after) :
    ∃ front s back left right, chunks = front ++ .literal s :: back ∧
      s.toList = left ++ c :: right ∧ before = (Render.join true front).toList ++ left ∧
      after = right ++ (Render.join true back).toList := by
  simp only [Render.join, String.toList_join, List.flatMap_map] at h ⊢
  obtain ⟨front, chunk, back, left, right, rfl, hchunk, hbefore, hafter⟩ := exists_of_flatMap_eq h
  cases chunk with
  | literal s => exact ⟨front, s, back, left, right, rfl, hchunk, hbefore, hafter⟩
  | value s =>
    have hmem : c ∈ (escape s).toList := by
      rw [show (escape s).toList = left ++ c :: right from hchunk]
      simp
    exact absurd hc (notMem_of_mem_escape hmem)

end Chunk

/-! ## Literals -/

/-- The text of a piece that is a literal. -/
def Piece.literals : Piece → List String
  | .literal text => [text]
  | .placeholder _ => []

/-- The literals in a segment. -/
def Segment.literals : Segment → List String
  | .piece p => p.literals
  | .each _ body => body.flatMap Piece.literals

/-- The literals in a template. -/
def Template.literals (t : Template) : List String :=
  t.parts.flatMap Segment.literals

/-- The literal text of a piece stands in its mark. -/
theorem Piece.OfMark.infix_of_mem_literals {m : Mark} {p : Piece} (h : OfMark m p) {s : String}
    (hs : s ∈ p.literals) : s.toList <:+: m.chars := by
  cases h with
  | literal run =>
    rw [literals, List.mem_singleton] at hs
    rw [hs, String.toList_ofList, Mark.chars]
  | placeholder _ => cases hs

/-- The literal texts of a body stand in its marks. -/
theorem Piece.infix_of_mem_literals {marks : List Mark} {body : List Piece}
    (h : List.Forall₂ OfMark marks body) {s : String} (hs : s ∈ body.flatMap Piece.literals) :
    s.toList <:+: marks.flatMap Mark.chars := by
  induction h with
  | nil => cases hs
  | cons hpiece _ ih =>
    rw [List.flatMap_cons, List.mem_append] at hs
    rw [List.flatMap_cons]
    rcases hs with hs | hs
    · exact List.infix_append_of_infix_left (hpiece.infix_of_mem_literals hs)
    · exact List.infix_append_of_infix_right (ih hs)

namespace Segment

/-- The literal texts of a template stand in its source. -/
theorem Reads.infix_of_mem_literals {marks : List Mark} {segments : List Segment}
    (h : Reads marks segments) {s : String} (hs : s ∈ segments.flatMap literals) :
    s.toList <:+: marks.flatMap Mark.chars := by
  induction h with
  | nil => cases hs
  | piece hpiece _ ih =>
    rw [List.flatMap_cons, List.mem_append] at hs
    rw [List.flatMap_cons]
    rcases hs with hs | hs
    · exact List.infix_append_of_infix_left (hpiece.infix_of_mem_literals hs)
    · exact List.infix_append_of_infix_right (ih hs)
  | @each inner inner' path marks rest body segments hbody _ ih =>
    rw [List.flatMap_cons, List.mem_append] at hs
    rw [List.flatMap_cons, List.flatMap_append, List.flatMap_cons]
    rcases hs with hs | hs
    · exact List.infix_append_of_infix_right
        (List.infix_append_of_infix_left (Piece.infix_of_mem_literals hbody hs))
    · exact List.infix_append_of_infix_right
        (List.infix_append_of_infix_right (List.infix_append_of_infix_right (ih hs)))

/-- The literals of a text stand in it. -/
theorem infix_of_mem_literals {text : String} {parts : List Segment} (h : ofText text = .ok parts)
    {s : String} (hs : s ∈ parts.flatMap literals) : s.toList <:+: text.toList := by
  have hinfix := (reads_of_outside h).infix_of_mem_literals hs
  rwa [Mark.flatMap_chars_ofChars] at hinfix

end Segment

namespace Render

variable {run : Behaviour} {helpers : Registry} {data : Scope}

/-- What is shown as literal text is a literal text of the piece. -/
theorem mem_literals_of_piece {frame : Frame} {p : Piece} {s : String}
    (h : piece run helpers frame p = .literal s) : s ∈ p.literals := by
  cases p with
  | literal text =>
    cases h
    exact List.mem_cons_self
  | placeholder e => cases h

/-- A literal chunk of a segment is one of its literals. -/
theorem mem_literals_of_segment {part : Segment} {s : String}
    (h : .literal s ∈ segment run helpers data part) : s ∈ part.literals := by
  cases part with
  | piece p =>
    rw [segment, List.mem_singleton] at h
    exact mem_literals_of_piece h.symm
  | each path body =>
    rw [segment, rounds, List.mem_flatMap] at h
    obtain ⟨⟨item, index⟩, -, h⟩ := h
    obtain ⟨p, hp, hpiece⟩ := List.mem_map.mp h
    exact List.mem_flatMap.mpr ⟨p, hp, mem_literals_of_piece hpiece⟩

end Render

/-! ## Templates -/

namespace Template

/-- What a text shows falls into chunks, literals that stand in the text and values, the same with
and without escaping: without, the chunks follow each other as they are, and with it each value is
escaped and nothing else.  An escaped value holds no character of markup, and decoded it is the
value again.  So with escaping on, a character of markup in the output stands in a literal. -/
theorem escaping_keeps_to_values {blocks : MalformedBlocks} {text : String}
    {plain escaped : Template}
    (hplain : compile { malformedBlocks := blocks, escape := false } (.text text) = .ok plain)
    (hescaped : compile { malformedBlocks := blocks, escape := true } (.text text) = .ok escaped)
    (run : Behaviour) (helpers : Registry) (data : Scope) :
    ∃ chunks : List Chunk,
      plain.render run helpers data = Render.join false chunks ∧
      escaped.render run helpers data = Render.join true chunks ∧
      (∀ s, .literal s ∈ chunks → s ∈ plain.literals ∧ s.toList <:+: text.toList) ∧
      (∀ s, .value s ∈ chunks →
        (∀ c ∈ (Chunk.escape s).toList, c ∉ Chunk.markupChars) ∧
          Html.Reference.decode (Chunk.escape s).toList = s.toList) ∧
      ∀ before c after, c ∈ Chunk.markupChars →
        (escaped.render run helpers data).toList = before ++ c :: after →
          ∃ front s back left right, chunks = front ++ .literal s :: back ∧
            s.toList = left ++ c :: right ∧ before = (Render.join true front).toList ++ left ∧
            after = right ++ (Render.join true back).toList := by
  have hvalues (s : String) : (∀ c ∈ (Chunk.escape s).toList, c ∉ Chunk.markupChars) ∧
      Html.Reference.decode (Chunk.escape s).toList = s.toList :=
    ⟨fun _ => Chunk.notMem_of_mem_escape, Chunk.decode_escape s⟩
  cases compile_text_eq_ok_iff.mp hplain with
  | segments hparts =>
    rw [compile_of_ofText hparts] at hescaped
    cases hescaped
    refine ⟨_, rfl, rfl, fun s hs => ?_, fun s _ => hvalues s,
      fun before c after hc => Chunk.exists_literal_of_join_eq hc⟩
    obtain ⟨part, hpart, hchunk⟩ := List.mem_flatMap.mp hs
    have hliteral := List.mem_flatMap.mpr ⟨part, hpart, Render.mem_literals_of_segment hchunk⟩
    exact ⟨hliteral, Segment.infix_of_mem_literals hparts hliteral⟩
  | empty hfault =>
    cases compile_text_eq_ok_iff.mp hescaped with
    | segments hparts => cases hfault.symm.trans hparts
    | empty =>
      refine ⟨[], rfl, rfl, by simp, by simp, fun before c after _ h => ?_⟩
      simp [render, Program.render] at h

/-- A value that looks like a reference between quotes of the template, items with tags and with a
quoted string, and the result of a helper. -/
theorem escaping_keeps_to_values_of_quotes :
    let text := "<p id='#\x7bx\x7d'>\x7b\x7beach xs\x7d\x7d&#\x7bthis\x7d;" ++
      "\x7b\x7b/each\x7d\x7d#\x7bjoin(x, '<')\x7d"
    let data := [("x", Value.str "&lt;'"), ("xs", .list [.str "<b>", .list [.str "\""]])]
    ∃ plain escaped, compile { escape := false } (.text text) = .ok plain ∧
      compile { escape := true } (.text text) = .ok escaped ∧
      plain.render Sample.run Sample.helpers data = "<p id='&lt;''>&<b>;&[\"\\\"\"];&lt;' <" ∧
      escaped.render Sample.run Sample.helpers data =
        "<p id='&amp;lt;&#39;'>&&lt;b&gt;;&[&quot;\\&quot;&quot;];&amp;lt;&#39; &lt;" ∧
      ∃ chunks, plain.render Sample.run Sample.helpers data = Render.join false chunks ∧
        escaped.render Sample.run Sample.helpers data = Render.join true chunks ∧
        (∀ s, .literal s ∈ chunks → s ∈ ["<p id='", "'>", "&", ";"]) ∧
        ∀ s, .value s ∈ chunks → Html.Reference.decode (Chunk.escape s).toList = s.toList := by
  intro text data
  have hread : Segment.ofText text = .ok [.piece (.literal "<p id='"),
      .piece (.placeholder (.operand (.path ["x"]))), .piece (.literal "'>"),
      .each ["xs"] [.literal "&", .placeholder (.operand (.path ["this"])), .literal ";"],
      .piece (.placeholder (.call "join" [.path ["x"], .literal (.str "<")]))] := by cbv
  have hplain := compile_of_ofText hread { escape := false }
  have hescaped := compile_of_ofText hread { escape := true }
  obtain ⟨chunks, hjoin, hjoin', hliterals, hvalues, -⟩ :=
    escaping_keeps_to_values hplain hescaped Sample.run Sample.helpers data
  exact ⟨_, _, hplain, hescaped, by decide +kernel, by decide +kernel, chunks, hjoin, hjoin',
    fun s hs => (hliterals s hs).1, fun s hs => (hvalues s hs).2⟩

end Template
end LiveMarkup
