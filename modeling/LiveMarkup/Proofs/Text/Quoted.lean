import LiveMarkup.Text.Quoted
import Mathlib.Data.List.Basic

/-!
# Reading texts off the front

Two things that can be read off the front of a text: a run of characters of one kind, which ends
where the text goes on with another kind, and a quoted string, which ends at the first quote without
a backslash before it.

Main definitions:

- `Text.Stops`: a text that does not start with a character of a kind.
- `Text.Quoted.unescape?`: one character of a quoted string, with what follows it.

Main results:

- `Text.run_append_inj`: a run of characters can be read off.
- `Text.Quoted.unescape?_literalChar`: what is written for a character is read as that character.
- `Text.Quoted.literal_append_inj`: a quoted string can be read off.
-/

namespace LiveMarkup
namespace Text

/-! ## Runs of characters -/

/-- A text that does not start with a character of a kind. -/
def Stops (p : Char → Bool) (rest : List Char) : Prop :=
  ∀ c ∈ rest.head?, p c = false

theorem stops_cons {p : Char → Bool} {c : Char} (hc : p c = false) (rest : List Char) :
    Stops p (c :: rest) := by
  rintro d ⟨⟩
  exact hc

theorem stops_nil {p : Char → Bool} : Stops p [] := by
  simp [Stops]

/-- A run of characters of a kind can be read off a text in which it goes no further. -/
theorem run_append_inj {p : Char → Bool} {cs ds rest rest' : List Char}
    (hcs : ∀ c ∈ cs, p c = true) (hds : ∀ c ∈ ds, p c = true) (hrest : Stops p rest)
    (hrest' : Stops p rest') (h : cs ++ rest = ds ++ rest') : cs = ds ∧ rest = rest' := by
  induction cs generalizing ds with
  | nil =>
    cases ds with
    | nil => exact ⟨rfl, h⟩
    | cons d ds =>
      rw [List.nil_append] at h
      subst h
      have hstop := hrest d rfl
      rw [hds d List.mem_cons_self] at hstop
      cases hstop
  | cons c cs ih =>
    cases ds with
    | nil =>
      rw [List.nil_append] at h
      subst h
      have hstop := hrest' c rfl
      rw [hcs c List.mem_cons_self] at hstop
      cases hstop
    | cons d ds =>
      obtain ⟨rfl, htail⟩ := List.cons.inj h
      rw [List.forall_mem_cons] at hcs hds
      obtain ⟨rfl, rfl⟩ := ih hcs.2 hds.2 htail
      exact ⟨rfl, rfl⟩

/-! ## Quoted strings -/

namespace Quoted

/-- The control character that is written with some digits. -/
def control? (digits : List Char) : Option Char :=
  ((List.range 0x20).find? fun n => hexPadded 4 n == digits).map Char.ofNat

/-- Read one character of a quoted string, which may be written with a backslash. -/
def unescape? : List Char → Option (Char × List Char)
  | [] => none
  | '\\' :: 'n' :: rest => some ('\n', rest)
  | '\\' :: 'r' :: rest => some ('\r', rest)
  | '\\' :: 't' :: rest => some ('\t', rest)
  | '\\' :: 'u' :: rest => (control? (rest.take 4)).map fun c => (c, rest.drop 4)
  | '\\' :: c :: rest => some (c, rest)
  | c :: rest => some (c, rest)

/-- Each control character has four digits of its own. -/
theorem find?_hexPadded {n : Nat} (hn : n < 0x20) :
    (hexPadded 4 n).length = 4 ∧
      (List.range 0x20).find? (fun m => hexPadded 4 m == hexPadded 4 n) = some n := by
  revert n
  decide

theorem control?_hexPadded {c : Char} (hc : c.toNat < 0x20) :
    control? (hexPadded 4 c.toNat) = some c := by
  rw [control?, (find?_hexPadded hc).2, Option.map_some, Char.ofNat_toNat]

/-- What is written for a character is read as that character. -/
theorem unescape?_literalChar (c : Char) (rest : List Char) :
    unescape? (literalChar c ++ rest) = some (c, rest) := by
  unfold literalChar
  split
  · rfl
  · rfl
  · rfl
  · rfl
  · rfl
  · next hquote hbackslash hn hr ht =>
    by_cases hcontrol : c.toNat < 0x20
    · have hlength := (find?_hexPadded hcontrol).1
      rw [if_pos hcontrol]
      simp only [List.cons_append, List.nil_append, unescape?]
      rw [List.take_left' hlength, List.drop_left' hlength, control?_hexPadded hcontrol]
      rfl
    · rw [if_neg hcontrol, List.singleton_append, unescape?]
      all_goals simp_all

/-- No character is written as a quote alone. -/
theorem literalChar_append_ne_quote (c : Char) (rest rest' : List Char) :
    literalChar c ++ rest ≠ '"' :: rest' := by
  intro h
  have hread := unescape?_literalChar c rest
  rw [h] at hread
  cases hread
  cases h

/-- The characters of a quoted string can be read off a text up to its closing quote. -/
theorem flatMap_literalChar_inj :
    ∀ {cs ds rest rest' : List Char},
      cs.flatMap literalChar ++ '"' :: rest = ds.flatMap literalChar ++ '"' :: rest' →
        cs = ds ∧ rest = rest'
  | [], [], rest, rest', h => ⟨rfl, (List.cons.inj h).2⟩
  | [], d :: ds, rest, rest', h => by
    rw [List.flatMap_cons, List.append_assoc] at h
    exact absurd h.symm (literalChar_append_ne_quote d _ rest)
  | c :: cs, [], rest, rest', h => by
    rw [List.flatMap_cons, List.append_assoc] at h
    exact absurd h (literalChar_append_ne_quote c _ rest')
  | c :: cs, d :: ds, rest, rest', h => by
    rw [List.flatMap_cons, List.flatMap_cons, List.append_assoc, List.append_assoc] at h
    have hread := congrArg unescape? h
    rw [unescape?_literalChar, unescape?_literalChar, Option.some.injEq, Prod.mk.injEq] at hread
    obtain ⟨rfl, htail⟩ := hread
    obtain ⟨rfl, rfl⟩ := flatMap_literalChar_inj htail
    exact ⟨rfl, rfl⟩

theorem toList_literal_append (s : String) (rest : List Char) :
    (literal s).toList ++ rest = '"' :: (s.toList.flatMap literalChar ++ '"' :: rest) := by
  simp [literal]

/-- A quoted string can be read off the front of a text. -/
theorem literal_append_inj {s t : String} {rest rest' : List Char}
    (h : (literal s).toList ++ rest = (literal t).toList ++ rest') : s = t ∧ rest = rest' := by
  rw [toList_literal_append, toList_literal_append] at h
  obtain ⟨hchars, rfl⟩ := flatMap_literalChar_inj (List.cons.inj h).2
  exact ⟨String.toList_inj.mp hchars, rfl⟩

end Quoted
end Text
end LiveMarkup
