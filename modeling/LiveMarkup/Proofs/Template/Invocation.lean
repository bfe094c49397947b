import LiveMarkup.Proofs.Template.Compilation
import LiveMarkup.Proofs.Template.Derivation
import LiveMarkup.Proofs.Template.Names
import LiveMarkup.Proofs.Template.Writing
import LiveMarkup.Sample

/-!
# Calling helpers by their names

The registry has a rule of its own for the names that it takes.  Each of them is an identifier of
the expressions too, so each can be called.  Without parentheses three of them are literals instead,
and these three show themselves, whatever is registered under them.

Main definitions:

- `Expr.literalWords`: the identifiers that are literals.

Main results:

- `Registry.isIdent_of_isIdentifier`: a name that can be registered is an identifier.
- `Expr.read?_name`, `Expr.read?_call`: a name alone, and a name with empty parentheses.
- `Template.compile_placeholder`: a text that is one placeholder.
- `Render.name_shows_as_call_iff`: when a name shows the same as its call.
- `Registry.helper_reached_by_name`: what the name of a helper shows, alone and as a call.
- `Registry.literal_word_hides_helper`: a name that does not reach its helper alone.
-/

namespace LiveMarkup

/-! ## Reading names -/

/-- A name that can be registered is an identifier of the expressions. -/
theorem Registry.isIdent_of_isIdentifier {name : String} (h : isIdentifier name = true) :
    Expr.isIdent name.toList = true := by
  unfold isIdentifier at h
  cases hname : name.toList with
  | nil => simp [hname] at h
  | cons c rest =>
    rw [hname, Bool.and_eq_true] at h
    rw [Expr.isIdent, Bool.and_eq_true]
    refine ⟨?_, h.2⟩
    rw [Expr.isIdentStart, h.1, Bool.true_or]

namespace Expr

/-- The identifiers that are literals, where they are not called. -/
def literalWords : List String :=
  ["true", "false", "null"]

theorem keyword?_singleton_eq_none {name : String} (h : name ∉ literalWords) :
    keyword? [name] = none := by
  simp only [literalWords, List.mem_cons, List.not_mem_nil, or_false, not_or] at h
  unfold keyword?
  split <;> simp_all

/-- A name alone is a path, unless it is a literal. -/
theorem read?_name {name : String} (hident : isIdent name.toList = true) :
    read? name.toList = some (.operand (operandOfPath [name])) := by
  have hblank : Text.Blank [] := by simp [Text.Blank]
  have hdotted : Dotted name.toList [name] :=
    Dotted.singleton_iff.mpr ⟨hident, String.ofList_toList⟩
  exact read?_of_written
    ⟨[], _, [], by simp, hblank, .operand (operandOfPath_derived hdotted), hblank⟩

/-- A name with empty parentheses is a call. -/
theorem read?_call {name : String} (hident : isIdent name.toList = true) :
    read? (name.toList ++ ['(', ')']) = some (.call name []) := by
  have hblank : Text.Blank [] := by simp [Text.Blank]
  have hcall := Derived.call hident hblank (.inl ⟨rfl, hblank⟩)
  rw [String.ofList_toList] at hcall
  exact read?_of_written ⟨[], _, [], by simp, hblank, hcall, hblank⟩

end Expr

/-! ## Placeholders -/

/-- A text that is one placeholder. -/
theorem Segment.ofText_placeholder {source : String} {e : Expr}
    (h : Expr.read? source.toList = some e) :
    ofText ("#\x7b" ++ source ++ "\x7d") = .ok [.piece (.placeholder e)] := by
  have hmarks :
      Mark.ofChars ("#\x7b" ++ source ++ "\x7d").toList = [.placeholder source.toList] := by
    have hwritten : (Mark.placeholder source.toList).Written := ⟨e, h⟩
    have hsingle := Mark.ofChars_placeholder hwritten []
    rw [Mark.ofChars] at hsingle
    rw [← hsingle]
    simp [Mark.chars]
  rw [ofText, hmarks]
  exact outside_of_reads (.piece (.placeholder h) .nil) 0

/-- A text that is one placeholder shows its value. -/
theorem Template.compile_placeholder {source : String} {e : Expr}
    (h : Expr.read? source.toList = some e) (config : TemplateConfig) :
    ∃ t, compile config (.text ("#\x7b" ++ source ++ "\x7d")) = .ok t ∧
      ∀ run helpers data, t.render run helpers data =
        (Render.piece run helpers { data } (.placeholder e)).text config.escape := by
  refine ⟨_, compile_of_ofText (Segment.ofText_placeholder h) config, fun run helpers data => ?_⟩
  simp [render, Program.render, Render.segments, Render.segment, Render.join, String.join_cons,
    String.join_nil]

/-- A literal shows itself, and null nothing; there is nothing to escape in it. -/
theorem Render.text_piece_of_literalWord {name : String} (h : name ∈ Expr.literalWords)
    (run : Behaviour) (helpers : Registry) (frame : Frame) (escaped : Bool) :
    (piece run helpers frame (.placeholder (.operand (Expr.operandOfPath [name])))).text escaped =
      if name = "null" then "" else name := by
  simp only [Expr.literalWords, List.mem_cons, List.not_mem_nil, or_false] at h
  have hescape : Chunk.escape "true" = "true" ∧ Chunk.escape "false" = "false" ∧
      Chunk.escape "" = "" := by decide +kernel
  rcases h with rfl | rfl | rfl <;>
    simp [Expr.operandOfPath, piece, eval, operandValue, shown, Value.text, Value.literal,
      Chunk.text, hescape]

/-! ## Names and calls -/

namespace Render

/-- What is no helper is shown as it is. -/
theorem shown_of_helper?_eq_none {run : Behaviour} {v : Value} (h : v.helper? = none) :
    shown run v = v := by
  cases v with
  | helper k => cases h
  | _ => rfl

/-- A name that stands for a helper shows the same as its call without arguments, unless the helper
returns another one.  The name shows that one by its mark, but the call has called it in turn. -/
theorem piece_name_eq_piece_call_iff {run : Behaviour} {helpers : Registry} {frame : Frame}
    {name : String} {h : Helper} (hresolve : resolve? helpers frame name = some (.helper h)) :
    piece run helpers frame (.placeholder (.operand (.path [name]))) =
        piece run helpers frame (.placeholder (.call name [])) ↔
      ∀ k, run h [] = .helper k → (run k []).text = Value.helperMark := by
  rw [piece_of_resolve? hresolve, piece, eval_call_of_resolve? hresolve, List.map_nil,
    Chunk.value.injEq]
  cases hreturn : run h [] with
  | helper k => simp [shown, Value.text, Value.literal, eq_comm]
  | _ => simp [shown]

/-- In every frame an identifier that is no literal shows, alone and with empty parentheses, the
same for a helper that it stands for if and only if the helper returns none, or one whose own result
shows like the mark of a helper. -/
theorem name_shows_as_call_iff {name : String} (hident : Expr.isIdent name.toList = true)
    (hword : name ∉ Expr.literalWords) :
    ∃ e e', Expr.read? name.toList = some e ∧ Expr.read? (name ++ "()").toList = some e' ∧
      ∀ run helpers frame h, resolve? helpers frame name = some (.helper h) →
        (piece run helpers frame (.placeholder e) = piece run helpers frame (.placeholder e') ↔
          ∀ k, run h [] = .helper k → (run k []).text = Value.helperMark) := by
  have hname := Expr.read?_name hident
  rw [Expr.operandOfPath_eq, Expr.keyword?_singleton_eq_none hword] at hname
  have hcall : Expr.read? (name ++ "()").toList = some (.call name []) := by
    rw [String.toList_append]
    exact Expr.read?_call hident
  exact ⟨_, _, hname, hcall, fun run helpers frame h => piece_name_eq_piece_call_iff⟩

/-- A greeter shows its greeting both ways.  A helper that returns the greeter does not: its name
shows a helper, and its call shows the greeting. -/
theorem name_shows_as_call_iff_of_greeter :
    let run : Behaviour := fun h args => if h = ⟨3⟩ then .helper Sample.greet else Sample.run h args
    let frame (h : Helper) : Frame := { data := [("host", .helper h)] }
    Expr.isIdent "host".toList = true ∧ "host" ∉ Expr.literalWords ∧
      ∃ e e', Expr.read? "host".toList = some e ∧ Expr.read? "host()".toList = some e' ∧
        piece run {} (frame Sample.greet) (.placeholder e) =
          piece run {} (frame Sample.greet) (.placeholder e') ∧
        piece run {} (frame ⟨3⟩) (.placeholder e) ≠ piece run {} (frame ⟨3⟩) (.placeholder e') := by
  intro run frame
  have hident : Expr.isIdent "host".toList = true := by decide
  have hword : "host" ∉ Expr.literalWords := by decide
  obtain ⟨e, e', hname, hcall, hshows⟩ := name_shows_as_call_iff hident hword
  refine ⟨hident, hword, e, e', hname, hcall, (hshows run {} (frame Sample.greet) _ rfl).mpr ?_,
    (hshows run {} (frame ⟨3⟩) _ rfl).not.mpr ?_⟩
  · intro k hk
    cases hk
  · intro hmark
    exact absurd (hmark Sample.greet rfl) (by decide)

end Render

/-! ## Helpers -/

namespace Registry

theorem insert_eq_ok {registry registry' : Registry} {name : String} {h : Helper}
    (hinsert : registry.insert name h = .ok registry') :
    isIdentifier name = true ∧ registry'.get? name = some h := by
  unfold insert at hinsert
  split at hinsert
  · next hname =>
    cases hinsert
    refine ⟨hname, ?_⟩
    rw [get?, Entries.lookup_insert, if_pos rfl]
  · cases hinsert

/-- A helper is reached by any name under which it can be registered.  A name that is no literal
shows, alone, what the helper returns without arguments, whatever the data binds to it.  A literal
shows itself, but its name with empty parentheses calls the helper too, and shows what that returns
where it is no helper. -/
theorem helper_reached_by_name {registry registry' : Registry} {name : String} {h : Helper}
    (hinsert : registry.insert name h = .ok registry') (config : TemplateConfig) :
    (name ∉ Expr.literalWords →
      ∃ t, Template.compile config (.text ("#\x7b" ++ name ++ "\x7d")) = .ok t ∧
        ∀ run data, t.render run registry' data =
          (Chunk.value (run h []).text).text config.escape) ∧
      (name ∈ Expr.literalWords →
        ∃ t, Template.compile config (.text ("#\x7b" ++ name ++ "\x7d")) = .ok t ∧
          ∀ run data, t.render run registry' data = if name = "null" then "" else name) ∧
      ∃ t, Template.compile config (.text ("#\x7b" ++ (name ++ "()") ++ "\x7d")) = .ok t ∧
        ∀ run data, (run h []).helper? = none →
          t.render run registry' data = (Chunk.value (run h []).text).text config.escape := by
  obtain ⟨hname, hget⟩ := insert_eq_ok hinsert
  have hident := isIdent_of_isIdentifier hname
  refine ⟨fun hword => ?_, fun hword => ?_, ?_⟩
  · have hread := Expr.read?_name hident
    rw [Expr.operandOfPath_eq, Expr.keyword?_singleton_eq_none hword] at hread
    obtain ⟨t, hcompile, hrender⟩ := Template.compile_placeholder hread config
    refine ⟨t, hcompile, fun run data => ?_⟩
    rw [hrender, Render.piece_of_get? hget]
  · obtain ⟨t, hcompile, hrender⟩ := Template.compile_placeholder (Expr.read?_name hident) config
    refine ⟨t, hcompile, fun run data => ?_⟩
    rw [hrender]
    exact Render.text_piece_of_literalWord hword run registry' { data } config.escape
  · have hread : Expr.read? (name ++ "()").toList = some (.call name []) := by
      rw [String.toList_append]
      exact Expr.read?_call hident
    obtain ⟨t, hcompile, hrender⟩ := Template.compile_placeholder hread config
    refine ⟨t, hcompile, fun run data hreturn => ?_⟩
    rw [hrender, Render.piece, Render.eval_call_of_get? hget, List.map_nil,
      Render.shown_of_helper?_eq_none hreturn]

/-- A name that begins like a literal, registered a second time and bound by the data too. -/
theorem helper_reached_by_name_beside_literal :
    let registry : Registry := ⟨[("upper", Sample.upper), ("$true_1", Sample.join)]⟩
    let registry' : Registry := ⟨[("upper", Sample.upper), ("$true_1", Sample.greet)]⟩
    let data := [("$true_1", Value.str "bye")]
    registry.insert "$true_1" Sample.greet = .ok registry' ∧ "$true_1" ∉ Expr.literalWords ∧
      (∃ t, Template.compile {} (.text "#\x7b$true_1\x7d") = .ok t ∧
        t.render Sample.run registry' data = "hi") ∧
      ∃ t, Template.compile {} (.text "#\x7b$true_1()\x7d") = .ok t ∧
        t.render Sample.run registry' data = "hi" := by
  intro registry registry' data
  have hinsert : registry.insert "$true_1" Sample.greet = .ok registry' := rfl
  have hword : "$true_1" ∉ Expr.literalWords := by decide
  obtain ⟨hname, -, t, hcompile, hrender⟩ := helper_reached_by_name hinsert {}
  obtain ⟨t', hcompile', hrender'⟩ := hname hword
  exact ⟨hinsert, hword, ⟨t', hcompile', hrender' Sample.run data⟩, t, hcompile,
    hrender Sample.run data rfl⟩

/-- A helper can be registered under the name of a literal, and then its name alone shows the
literal and not what the helper returns. -/
theorem literal_word_hides_helper :
    let registry : Registry := ⟨[("true", Sample.greet)]⟩
    let data := [("true", Value.str "bye")]
    Registry.insert {} "true" Sample.greet = .ok registry ∧
      ∃ t, Template.compile {} (.text "#\x7btrue\x7d") = .ok t ∧
        t.render Sample.run registry data = "true" ∧
        (Sample.run Sample.greet []).text = "hi" := by
  intro registry data
  have hread : Segment.ofText "#\x7btrue\x7d" =
      .ok [.piece (.placeholder (.operand (.literal (.bool true))))] := by cbv
  exact ⟨rfl, _, Template.compile_of_ofText hread {}, rfl, rfl⟩

end Registry
end LiveMarkup
