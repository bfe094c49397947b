import LiveMarkup.Html.Lexer
import LiveMarkup.Markup.Serialize
import LiveMarkup.Proofs.Html.References

/-!
# Scanning written markup

The lexer completes a named reference only with the character after it, and the builder may change
the state of the lexer between two tokens.  So a piece of markup is described by what it does from
any state that reads on like ordinary content, whatever token such a state still owes; pieces
described in this way can be put together.

Main definitions:

- `Lexer.Scans`: the tokens on the way from one state to another.
- `Lexer.Owes`: the states that read on like ordinary content.
- `Lexer.Spells`: the characters that stand for tokens.

Main results:

- `Lexer.Spells.append`: pieces of markup put together.
- `Lexer.spells_escapeText`: an escaped text stands for its characters.
- `Lexer.scans_escapeAttribute`: an escaped value adds its characters to the attribute.
-/

namespace LiveMarkup
namespace Html
namespace Lexer

theorem append_ofList_cons (s : String) (c : Char) (cs : List Char) :
    s ++ String.ofList (c :: cs) = s.push c ++ String.ofList cs :=
  String.toList_inj.mp (by simp)

/-! ## Reading -/

/-- Characters, none of them a carriage return, that complete tokens on the way from one state to
another, whatever tags stand before them and whatever content they stand in. -/
inductive Scans : State → List Char → List Token → State → Prop
  | nil (s : State) : Scans s [] [] s
  | cons {s s₁ s₂ : State} {c : Char} {cs : List Char} {ts us : List Token} (hc : c ≠ '\r')
      (hnext : ∀ lastStart foreign, next lastStart foreign s c = (s₁, ts))
      (hrest : Scans s₁ cs us s₂) : Scans s (c :: cs) (ts ++ us) s₂

variable {s s₁ s₂ : State} {cs ds : List Char} {ts us : List Token}

/-- Characters are scanned one after the other. -/
theorem Scans.append (h : Scans s cs ts s₁) (h' : Scans s₁ ds us s₂) :
    Scans s (cs ++ ds) (ts ++ us) s₂ := by
  induction h with
  | nil => exact h'
  | cons hc hnext _ ih =>
    rw [List.cons_append, List.append_assoc]
    exact .cons hc hnext (ih h')

/-- A character that completes nothing. -/
theorem Scans.silent (s₁ : State) {c : Char} (hc : c ≠ '\r')
    (hnext : ∀ lastStart foreign, next lastStart foreign s c = (s₁, []))
    (hrest : Scans s₁ cs us s₂) : Scans s (c :: cs) us s₂ :=
  .cons hc hnext hrest

/-- A character that completes a token. -/
theorem Scans.last {c : Char} {t : Token} (hc : c ≠ '\r')
    (hnext : ∀ lastStart foreign, next lastStart foreign s c = (s₁, [t])) : Scans s [c] [t] s₁ :=
  .cons hc hnext (.nil s₁)

/-- What is scanned holds no carriage return. -/
theorem Scans.no_return (h : Scans s cs ts s₁) : '\r' ∉ cs := by
  induction h with
  | nil => simp
  | cons hc _ _ ih => simp [ih, hc.symm]

/-- A state that reads on like ordinary content, once it has completed tokens that it owes. -/
structure Owes (s : State) (owed : List Token) : Prop where
  next : ∀ lastStart foreign c,
    Lexer.next lastStart foreign s c = after owed (contentNext .data c)
  rest : s.rest = owed

/-- In content nothing is owed. -/
theorem owes_content : Owes (.content .data) [] where
  next _ _ _ := rfl
  rest := rfl

/-- Characters that stand for tokens in ordinary content.  The last token may be complete only with
what follows. -/
def Spells (cs : List Char) (ts : List Token) : Prop :=
  ∀ s owed, Owes s owed →
    ∃ us s' owed', Scans s cs us s' ∧ Owes s' owed' ∧ us ++ owed' = owed ++ ts

theorem Spells.nil : Spells [] [] :=
  fun s owed h => ⟨[], s, owed, .nil s, h, by simp⟩

/-- What spells tokens spells them one after the other. -/
theorem Spells.append (h : Spells cs ts) (h' : Spells ds us) : Spells (cs ++ ds) (ts ++ us) := by
  intro s owed howes
  obtain ⟨read, s₁, owed₁, hscans, howes₁, htokens⟩ := h s owed howes
  obtain ⟨read', s₂, owed₂, hscans', howes₂, htokens'⟩ := h' s₁ owed₁ howes₁
  refine ⟨read ++ read', s₂, owed₂, hscans.append hscans', howes₂, ?_⟩
  rw [List.append_assoc, htokens', ← List.append_assoc, htokens, List.append_assoc]

/-- Characters that leave ordinary content and come back to it. -/
theorem Spells.of_scans {c : Char} (hc : c ≠ '\r') (hleaves : contentNext .data c = (s, []))
    (hscans : Scans s cs ts (.content .data)) : Spells (c :: cs) ts := by
  intro s₀ owed howes
  refine ⟨owed ++ ts, .content .data, [], .cons hc ?_ hscans, owes_content, by simp⟩
  intro lastStart foreign
  rw [howes.next, hleaves]
  simp [after]

/-- A character that stands for itself in a text. -/
theorem spells_char {c : Char} (hc : c ≠ '\r')
    (hplain : contentNext .data c = (.content .data, [.char c])) : Spells [c] [.char c] := by
  intro s owed howes
  refine ⟨owed ++ [.char c] ++ [], .content .data, [], .cons hc ?_ (.nil _), owes_content, by simp⟩
  intro lastStart foreign
  rw [howes.next, hplain]
  rfl

/-! ## References -/

/-- A complete name with its semicolon that stands for a character. -/
structure Refers (name : List Char) (c : Char) : Prop where
  begins : ∃ first rest, name = first :: rest ∧ first ≠ '#' ∧ first.isAlphanum
  noReturn : '\r' ∉ name
  semicolon : name.contains ';'
  complete : Reference.Complete name [c]

/-- Every reference that is written for a character refers to it. -/
theorem refers_of_written {name : List Char} {c : Char}
    (h : (name, c) ∈ Reference.writtenNames) : Refers name c := by
  have hcomplete := Reference.complete_of_written h
  simp only [Reference.writtenNames, List.mem_cons, Prod.mk.injEq, List.not_mem_nil,
    or_false] at h
  rcases h with ⟨rfl, rfl⟩ | ⟨rfl, rfl⟩ | ⟨rfl, rfl⟩ | ⟨rfl, rfl⟩ | ⟨rfl, rfl⟩
  all_goals
    exact {
      begins := ⟨_, _, rfl, by decide, by decide⟩
      noReturn := by decide
      semicolon := by decide
      complete := hcomplete }

/-- The reference stands for its character wherever it stands. -/
theorem Refers.namedText_eq {name : List Char} {c : Char} (h : Refers name c) (place : Place)
    (following : List Char) : namedText place name following = [c] := by
  rw [namedText, h.complete.longest]
  cases place with
  | content kind => rfl
  | value tag quote? =>
    simp only [String.toList_ofList, h.semicolon]
    rfl

/-- A character after the letters of a reference. -/
theorem referenceNext_letters (place : Place) {first : Char} (hfirst : first ≠ '#')
    (rest : List Char) (c : Char) :
    referenceNext place (first :: rest) c =
      if Reference.startsName (first :: (rest ++ [c])) then
        (.reference place (first :: (rest ++ [c])), [])
      else place.putBefore (namedText place (first :: rest) [c]) c := by
  rw [referenceNext]
  · rfl
  · intro h
    cases h
  · intro written h
    exact hfirst (List.cons.inj h).1

/-- The letters of a reference complete nothing. -/
theorem scans_letters (place : Place) {first : Char} (hfirst : first ≠ '#') (more : List Char) :
    ∀ rest : List Char, '\r' ∉ more → Reference.startsName (first :: rest ++ more) →
      Scans (.reference place (first :: rest)) more []
        (.reference place (first :: rest ++ more)) := by
  induction more with
  | nil =>
    intro rest _ _
    rw [List.append_nil]
    exact .nil _
  | cons c more ih =>
    intro rest hreturn hstarts
    have hstarts' : Reference.startsName (first :: (rest ++ [c]) ++ more) := by
      simpa using hstarts
    have hc : c ≠ '\r' := by
      rintro rfl
      exact hreturn List.mem_cons_self
    refine .silent (.reference place (first :: (rest ++ [c]))) hc ?_ ?_
    · intro _ _
      show referenceNext _ _ _ = _
      rw [referenceNext_letters place hfirst, if_pos (Reference.startsName_of_append hstarts')]
    · have hrest := ih (rest ++ [c]) (fun h => hreturn (List.mem_cons_of_mem _ h)) hstarts'
      simpa using hrest

/-- A reference is read up to the character after it. -/
theorem Refers.scans {name : List Char} {c : Char} (h : Refers name c) (place : Place) :
    Scans (.reference place []) name [] (.reference place name) := by
  obtain ⟨first, rest, rfl, hne, hfirst⟩ := h.begins
  have hreturn : first ≠ '\r' ∧ '\r' ∉ rest := by
    have := h.noReturn
    simp only [List.mem_cons, not_or] at this
    exact ⟨Ne.symm this.1, this.2⟩
  refine .silent (.reference place [first]) hreturn.1 ?_ ?_
  · intro _ _
    show referenceNext place [] first = _
    rw [referenceNext, if_pos (.inl hfirst)]
  · exact scans_letters place hne rest [] hreturn.2 h.complete.startsName

/-- After a reference, a character follows the one that it stands for. -/
theorem Refers.next {name : List Char} {c : Char} (h : Refers name c) (place : Place)
    (lastStart : Option String) (foreign : Bool) (d : Char) :
    next lastStart foreign (.reference place name) d = place.putBefore [c] d := by
  have hmeans := h.namedText_eq place [d]
  have hends := h.complete.startsName_concat d
  obtain ⟨first, rest, rfl, hne, -⟩ := h.begins
  show referenceNext _ _ _ = _
  rw [referenceNext_letters place hne, ← List.cons_append, hends, if_neg Bool.false_ne_true, hmeans]

/-- A complete reference in content owes its character until the next one is read. -/
theorem Refers.owes {name : List Char} {c : Char} (h : Refers name c) :
    Owes (.reference (.content .data) name) [.char c] where
  next lastStart foreign d := h.next _ lastStart foreign d
  rest := by
    have hmeans := h.namedText_eq (.content .data) []
    obtain ⟨first, rest, rfl, hne, -⟩ := h.begins
    rw [State.rest, hmeans]
    · rfl
    · simp
    · intro written h
      exact hne (List.cons.inj h).1

/-- A reference in a text stands for its character. -/
theorem Refers.spells {name : List Char} {c : Char} (h : Refers name c) :
    Spells ('&' :: name) [.char c] := by
  intro s owed howes
  refine ⟨owed, _, [.char c], ?_, h.owes, rfl⟩
  have hamp : ∀ lastStart foreign,
      Lexer.next lastStart foreign s '&' = (.reference (.content .data) [], owed) := by
    intro lastStart foreign
    rw [howes.next]
    exact Prod.ext rfl (List.append_nil owed)
  have hscans := Scans.cons (by decide) hamp (h.scans (.content .data))
  rwa [List.append_nil] at hscans

/-! ## Texts -/

/-- A character that is read as it stands: neither U+0000 nor a carriage return. -/
def isLegible (c : Char) : Bool :=
  c != '\x00' && c != '\r'

/-- A character of a text, as it is escaped, spells itself. -/
theorem spells_escapeTextChar {c : Char} (hc : isLegible c) :
    Spells (Markup.escapeTextChar c) [.char c] := by
  have hne : c ≠ '\x00' ∧ c ≠ '\r' := by simpa [isLegible] using hc
  unfold Markup.escapeTextChar
  split
  · exact (refers_of_written (by decide)).spells
  · exact (refers_of_written (by decide)).spells
  · exact (refers_of_written (by decide)).spells
  · exact (refers_of_written (by decide)).spells
  · next hamp hlt _ _ =>
    refine spells_char hne.2 ?_
    rw [contentNext, if_neg hamp, if_neg hlt, if_neg hne.1]

/-- An escaped text stands for its characters. -/
theorem spells_escapeText {cs : List Char} (hcs : cs.all isLegible) :
    Spells (cs.flatMap Markup.escapeTextChar) (chars cs) := by
  induction cs with
  | nil => exact Spells.nil
  | cons c cs ih =>
    simp only [List.all_cons, Bool.and_eq_true] at hcs
    exact (spells_escapeTextChar hcs.1).append (ih hcs.2)

/-! ## Values -/

/-- A state that reads on like a value in double quotes. -/
def InValue (s : State) (d : Draft) : Prop :=
  ∀ lastStart foreign c, next lastStart foreign s c = valueNext d (some '"') c

/-- A reference in a value adds the character to the value. -/
theorem Refers.inValue {name : List Char} {c : Char} (h : Refers name c) (d : Draft) :
    InValue (.reference (.value d (some '"')) name) (d.pushAttrValue c) :=
  fun lastStart foreign e => h.next _ lastStart foreign e

/-- A reference in a value adds its character. -/
theorem Refers.scans_value {name : List Char} {c : Char} (h : Refers name c) {d : Draft}
    (hs : InValue s d) :
    ∃ s', Scans s ('&' :: name) [] s' ∧ InValue s' (d.pushAttrValue c) := by
  refine ⟨_, .silent _ (by decide) (fun lastStart foreign => ?_) (h.scans _), h.inValue d⟩
  rw [hs]
  rfl

/-- A character of a value, as it is escaped, is added to the value. -/
theorem scans_escapeAttributeChar {c : Char} (hc : isLegible c) {d : Draft} (hs : InValue s d) :
    ∃ s', Scans s (Markup.escapeAttributeChar c) [] s' ∧ InValue s' (d.pushAttrValue c) := by
  have hne : c ≠ '\x00' ∧ c ≠ '\r' := by simpa [isLegible] using hc
  unfold Markup.escapeAttributeChar
  split
  · exact (refers_of_written (by decide)).scans_value hs
  · exact (refers_of_written (by decide)).scans_value hs
  · next hamp hquot =>
    refine ⟨.value (d.pushAttrValue c) (some '"'), .silent _ hne.2 ?_ (.nil _), fun _ _ _ => rfl⟩
    intro _ _
    have hquote : some '"' ≠ some c := fun h => hquot (Option.some.inj h).symm
    rw [hs, valueNext, if_neg hquote, if_neg (by simp), if_neg (by simp), if_neg hamp, visible,
      if_neg hne.1]

/-- An escaped value adds its characters. -/
theorem scans_escapeAttribute {cs : List Char} (hcs : cs.all isLegible) :
    ∀ {s : State} {d : Draft}, InValue s d →
      ∃ s', Scans s (cs.flatMap Markup.escapeAttributeChar) [] s' ∧
        InValue s' (cs.foldl Draft.pushAttrValue d) := by
  induction cs with
  | nil => exact fun {s d} hs => ⟨s, .nil s, hs⟩
  | cons c cs ih =>
    intro s d hs
    simp only [List.all_cons, Bool.and_eq_true] at hcs
    obtain ⟨s₁, hscans, hs₁⟩ := scans_escapeAttributeChar hcs.1 hs
    obtain ⟨s₂, hscans', hs₂⟩ := ih hcs.2 hs₁
    exact ⟨s₂, hscans.append hscans', hs₂⟩

theorem foldl_pushAttrValue (d : Draft) (a : Attribute) (cs : List Char) :
    cs.foldl Draft.pushAttrValue { d with attr? := some a } =
      { d with attr? := some { a with value := a.value ++ String.ofList cs } } := by
  induction cs generalizing a with
  | nil => simp
  | cons c cs ih =>
    rw [List.foldl_cons, append_ofList_cons]
    exact ih { a with value := a.value.push c }

end Lexer
end Html
end LiveMarkup
