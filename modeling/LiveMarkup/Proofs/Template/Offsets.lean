import LiveMarkup.Proofs.Template.Spelling

/-!
# Offsets

Errors carry the offset of the offending mark in bytes.  The reader of segments counts the bytes on
its way and never goes back, so marks can be cut off at the front: if they stand for segments, the
segments come out, and what follows is read as if it stood alone, its errors further on.

Main definitions:

- `TemplateError.later`: an error that stands further on.

Main results:

- `byteLength_toList`: the length in bytes is that of the string.
- `Segment.outside_append`: marks that segments stand for are read before those behind them.
- `Segment.outside_add`: marks that stand further on are read alike.
-/

namespace LiveMarkup

/-! ## Lengths in bytes -/

/-- Bytes are counted as for the text of the characters. -/
theorem byteLength_eq_utf8Len (cs : List Char) : byteLength cs = String.utf8Len cs := by
  have hfoldl : ∀ n, cs.foldl (fun length c => length + c.utf8Size) n = n + String.utf8Len cs := by
    induction cs with
    | nil => simp
    | cons c cs ih =>
      intro n
      rw [List.foldl_cons, ih, String.utf8Len_cons]
      omega
  rw [byteLength, hfoldl, Nat.zero_add]

@[simp]
theorem byteLength_nil : byteLength [] = 0 :=
  rfl

@[simp]
theorem byteLength_append (cs ds : List Char) :
    byteLength (cs ++ ds) = byteLength cs + byteLength ds := by
  simp only [byteLength_eq_utf8Len, String.utf8Len_append]

/-- The characters of a text take as many bytes as the text does. -/
theorem byteLength_toList (s : String) : byteLength s.toList = s.utf8ByteSize := by
  rw [byteLength_eq_utf8Len, ← String.utf8ByteSize_ofList, String.ofList_toList]

namespace TemplateError

/-- An error that stands further on. -/
def later (bytes : Nat) : TemplateError → TemplateError
  | .malformedBlock fault offset => .malformedBlock fault (bytes + offset)
  | .invalidExpression source offset => .invalidExpression source (bytes + offset)

end TemplateError

namespace Segment

/-- A body and the tag that closes it are read before the segments behind them. -/
theorem inside_append {marks : List Mark} {body : List Piece}
    (hbody : List.Forall₂ Piece.OfMark marks body) (inner : List Char) (after : List Mark)
    (start offset : Nat) :
    inside start offset (marks ++ .tag inner (.closing eachName) :: after) =
      (outside (offset + byteLength (marks.flatMap Mark.chars) +
        byteLength (Mark.tag inner (.closing eachName)).chars) after).map (body, ·) := by
  induction hbody generalizing offset with
  | nil =>
    rw [List.nil_append, inside, if_pos rfl, List.flatMap_nil, byteLength_nil, Nat.add_zero]
    split <;> simp_all [Except.map]
  | @cons m p marks body hpiece _ ih =>
    rw [List.flatMap_cons, byteLength_append, ← Nat.add_assoc, List.cons_append]
    cases hpiece with
    | literal run =>
      rw [inside, ih, Mark.chars]
      cases outside _ after <;> rfl
    | placeholder he =>
      rw [inside, he]
      dsimp only
      rw [ih]
      cases outside _ after <;> rfl

/-- Marks that segments stand for are read before those behind them. -/
theorem outside_append {front : List Mark} {segments : List Segment} (h : Reads front segments)
    (offset : Nat) (after : List Mark) :
    outside offset (front ++ after) =
      (outside (offset + byteLength (front.flatMap Mark.chars)) after).map (segments ++ ·) := by
  induction h generalizing offset with
  | nil =>
    rw [List.nil_append, List.flatMap_nil, byteLength_nil, Nat.add_zero]
    cases outside offset after <;> rfl
  | piece hpiece _ ih =>
    rw [List.flatMap_cons, byteLength_append, ← Nat.add_assoc, List.cons_append]
    cases hpiece with
    | literal run =>
      rw [outside, ih, Mark.chars]
      cases outside _ after <;> rfl
    | placeholder he =>
      rw [outside, he]
      dsimp only
      rw [ih]
      cases outside _ after <;> rfl
  | @each inner inner' path marks rest body segments hbody _ ih =>
    rw [List.cons_append, List.append_assoc, List.cons_append, outside, if_pos rfl,
      inside_append hbody, ih]
    simp only [List.flatMap_cons, List.flatMap_append, byteLength_append, ← Nat.add_assoc]
    cases outside _ after <;> rfl

mutual

/-- Marks that stand further on are read alike. -/
theorem outside_add (bytes : Nat) : ∀ (offset : Nat) (marks : List Mark),
    outside (bytes + offset) marks = (outside offset marks).mapError (TemplateError.later bytes)
  | _, [] => rfl
  | offset, .plain run :: rest => by
    rw [outside, outside, Nat.add_assoc, outside_add bytes _ rest]
    cases outside (offset + byteLength run) rest <;> rfl
  | offset, .placeholder source :: rest => by
    rw [outside, outside, Nat.add_assoc, outside_add bytes _ rest]
    cases Expr.read? source with
    | none => rfl
    | some e =>
      dsimp only
      cases outside _ rest <;> rfl
  | offset, .tag inner (.opening name path) :: rest => by
    rw [outside, outside, Nat.add_assoc, inside_add bytes _ _ rest]
    split
    · cases inside _ _ rest <;> rfl
    · rfl
  | _, .tag _ (.closing _) :: _ => by
    rw [outside, outside]
    rfl

/-- The body of a block is read further on as before, with its errors further on. -/
theorem inside_add (bytes : Nat) : ∀ (start offset : Nat) (marks : List Mark),
    inside (bytes + start) (bytes + offset) marks =
      (inside start offset marks).mapError (TemplateError.later bytes)
  | _, _, [] => rfl
  | start, offset, .plain run :: rest => by
    rw [inside, inside, Nat.add_assoc, inside_add bytes _ _ rest]
    cases inside _ _ rest <;> rfl
  | start, offset, .placeholder source :: rest => by
    rw [inside, inside, Nat.add_assoc, inside_add bytes _ _ rest]
    cases Expr.read? source with
    | none => rfl
    | some e =>
      dsimp only
      cases inside _ _ rest <;> rfl
  | _, _, .tag _ (.opening _ _) :: _ => by
    rw [inside, inside]
    rfl
  | start, offset, .tag inner (.closing name) :: rest => by
    rw [inside, inside, Nat.add_assoc, outside_add bytes _ rest]
    split
    · cases outside _ rest <;> rfl
    · rfl

end

end Segment
end LiveMarkup
