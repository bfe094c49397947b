import LiveMarkup.Proofs.Html.StartTags
import Mathlib.Data.List.Infix

/-!
# Reading tags and texts back

A start tag is written with its name, the names of its attributes and their values in double quotes;
in a value only ampersands and double quotes are written as references, and nothing else in it can
end it or stand for something else.  So the tag is read back at its last character and not before.
A text is written with references for whatever could begin a tag or a reference, and is read back
character by character, whatever follows it.

Main definitions:

- `Lexer.read`, `Lexer.tokens`: the tokens that characters complete, up to their end and with it.
- `Lexer.isPlainName`: names of lowercase letters, digits and hyphens.

Main results:

- `Lexer.Scans.read_eq`: what is read on the way from one state to another.
- `Lexer.Spells.tokens_append`: the tokens of markup come before those of what follows it.
- `Lexer.written_reads_back`: start tags and texts.
-/

namespace LiveMarkup
namespace Html
namespace Lexer

/-! ## Reading characters -/

/-- Read characters, one after the other. -/
def read (lexer : Lexer) (foreign : Bool) : List Char → Lexer × List Token
  | [] => (lexer, [])
  | c :: cs =>
    let (lexer, ts) := lexer.feed foreign c
    let (lexer, us) := lexer.read foreign cs
    (lexer, ts ++ us)

/-- The tokens of markup, its end included. -/
def tokens (lexer : Lexer) (foreign : Bool) (cs : List Char) : List Token :=
  let (lexer, ts) := lexer.read foreign (unifyNewlines cs)
  ts ++ lexer.state.rest

variable {s s' : State} {cs ds : List Char} {ts owed : List Token} {last : Option String}

theorem lastStartAmong_append (last : Option String) (ts us : List Token) :
    lastStartAmong last (ts ++ us) = lastStartAmong (lastStartAmong last ts) us :=
  List.foldl_append

/-- Characters are read one after the other, each from the state that the last one leaves. -/
theorem read_append (lexer : Lexer) (foreign : Bool) (cs ds : List Char) :
    lexer.read foreign (cs ++ ds) =
      (((lexer.read foreign cs).1.read foreign ds).1,
        (lexer.read foreign cs).2 ++ ((lexer.read foreign cs).1.read foreign ds).2) := by
  induction cs generalizing lexer with
  | nil => rfl
  | cons c cs ih => simp only [List.cons_append, read, ih, List.append_assoc]

/-- What completes tokens is read as these. -/
theorem Scans.read_eq (h : Scans s cs ts s') (last : Option String) (foreign : Bool) :
    Lexer.read ⟨s, last⟩ foreign cs = (⟨s', lastStartAmong last ts⟩, ts) := by
  induction h generalizing last with
  | nil => rfl
  | cons hc hnext _ ih => simp only [Lexer.read, feed, hnext, ih, lastStartAmong_append]

/-- A part of what completes nothing completes nothing. -/
theorem Scans.of_prefix (h : Scans s cs ts s') (hnone : ts = []) (hpart : ds <+: cs) :
    ∃ s₁, Scans s ds [] s₁ := by
  induction h generalizing ds with
  | nil s =>
    rw [List.prefix_nil.mp hpart]
    exact ⟨s, .nil s⟩
  | @cons s s₁ s₂ c cs ts us hc hnext _ ih =>
    obtain ⟨rfl, rfl⟩ := List.append_eq_nil_iff.mp hnone
    rcases ds with _ | ⟨d, ds⟩
    · exact ⟨s, .nil s⟩
    · obtain ⟨rfl, hbehind⟩ := List.cons_prefix_cons.mp hpart
      obtain ⟨s₃, hscans⟩ := ih rfl hbehind
      exact ⟨s₃, .silent s₁ hc hnext hscans⟩

/-- What a state owes comes first, and then the state reads on like ordinary content. -/
theorem Owes.read_rest (h : Owes s owed) (last : Option String) (foreign : Bool) (cs : List Char) :
    let owing := Lexer.read ⟨s, last⟩ foreign cs
    let plain := Lexer.read ⟨.content .data, lastStartAmong last owed⟩ foreign cs
    owing.2 ++ owing.1.state.rest = owed ++ (plain.2 ++ plain.1.state.rest) := by
  cases cs with
  | nil =>
    simp only [Lexer.read, List.nil_append, h.rest]
    exact (List.append_nil owed).symm
  | cons c cs =>
    have hplain : ∀ last, Lexer.next last foreign (.content .data) c = contentNext .data c :=
      fun _ => rfl
    simp only [Lexer.read, feed, h.next, hplain, after, lastStartAmong_append, List.append_assoc]

/-- Line breaks without carriage return stay what they are. -/
theorem unifyNewlines_append (h : '\r' ∉ cs) (ds : List Char) :
    unifyNewlines (cs ++ ds) = cs ++ unifyNewlines ds := by
  induction cs with
  | nil => rfl
  | cons c cs ih =>
    simp only [List.mem_cons, not_or] at h
    rw [List.cons_append, unifyNewlines]
    · rw [ih h.2, List.cons_append]
    · exact fun rest hc => absurd hc.symm h.1
    · exact fun hc => absurd hc.symm h.1

/-- In ordinary content the tokens of markup come before those of what follows it. -/
theorem Spells.tokens_append (h : Spells cs ts) (last : Option String) (foreign : Bool)
    (more : List Char) :
    Lexer.tokens ⟨.content .data, last⟩ foreign (cs ++ more) =
      ts ++ Lexer.tokens ⟨.content .data, lastStartAmong last ts⟩ foreign more := by
  obtain ⟨us, s', owed, hscans, howes, htokens⟩ := h _ _ owes_content
  rw [List.nil_append] at htokens
  have hrest := howes.read_rest (lastStartAmong last us) foreign (unifyNewlines more)
  rw [← lastStartAmong_append, htokens] at hrest
  rw [Lexer.tokens, unifyNewlines_append hscans.no_return, read_append, hscans.read_eq]
  simp only [Lexer.tokens]
  rw [List.append_assoc, hrest, ← List.append_assoc, htokens]

/-! ## Names -/

/-- A lowercase letter, a digit or a hyphen. -/
def isPlainNameChar (c : Char) : Bool :=
  c.isLower || c.isDigit || c == '-'

/-- A lowercase letter, followed by lowercase letters, digits and hyphens. -/
def isPlainName (name : String) : Bool :=
  name.toList.head?.any Char.isLower && name.toList.all isPlainNameChar

theorem toLower_of_isPlainNameChar {c : Char} (hc : isPlainNameChar c) : c.toLower = c := by
  have hnotUpper : ¬ (c.val ≥ 'A'.val ∧ c.val ≤ 'Z'.val) := by
    have hcases : ((decide (c.val ≥ 'a'.val) && decide (c.val ≤ 'z'.val)) ||
        (decide (c.val ≥ '0'.val) && decide (c.val ≤ '9'.val)) || c == '-') = true := hc
    simp only [Bool.or_eq_true, Bool.and_eq_true, decide_eq_true_eq, beq_iff_eq] at hcases
    rintro ⟨hlow, hhigh⟩
    rcases hcases with (⟨hc, -⟩ | ⟨-, hc⟩) | rfl
    · exact absurd (UInt32.le_trans hc hhigh) (by decide)
    · exact absurd (UInt32.le_trans hlow hc) (by decide)
    · exact absurd hlow (by decide)
  exact dif_neg hnotUpper

/-- Plain characters stand for themselves in names. -/
theorem isNameChar_of_isPlainNameChar {c : Char} (hc : isPlainNameChar c) : isNameChar c := by
  have hne : ∀ d : Char, isPlainNameChar d = false → c ≠ d := by
    rintro d hd rfl
    rw [hd] at hc
    cases hc
  have hblank : isBlank c = false := by
    simp only [isBlank, Bool.or_eq_false_iff, beq_eq_false_iff_ne]
    exact ⟨⟨⟨⟨hne _ (by decide), hne _ (by decide)⟩, hne _ (by decide)⟩, hne _ (by decide)⟩,
      hne _ (by decide)⟩
  exact isNameChar_iff.mpr ⟨hblank, hne _ (by decide), hne _ (by decide), hne _ (by decide),
    hne _ (by decide), toLower_of_isPlainNameChar hc⟩

/-- A plain name is a name, and begins with a letter. -/
theorem isName_of_isPlainName {name : String} (h : isPlainName name) :
    isName name ∧ name.toList.head?.any Char.isAlpha := by
  simp only [isPlainName, Bool.and_eq_true] at h
  obtain ⟨hhead, hall⟩ := h
  rcases hcs : name.toList with _ | ⟨c, cs⟩
  · rw [hcs] at hhead
    cases hhead
  · have hempty : name.isEmpty = false := by
      rw [← Bool.not_eq_true, String.isEmpty_iff]
      rintro rfl
      cases hcs
    have hlower : c.isLower := by simpa [hcs] using hhead
    have halpha : c.isAlpha := (Bool.or_eq_true _ _).mpr (.inr hlower)
    refine ⟨?_, by simp [halpha]⟩
    rw [isName, hempty, Bool.not_false, Bool.true_and, List.all_eq_true]
    exact fun d hd => isNameChar_of_isPlainNameChar (List.all_eq_true.mp hall d hd)

/-- Plain names and legible values make a legible tag. -/
theorem isLegibleTag_of_isPlainName {name : String} {attrs : List Attribute}
    (hname : isPlainName name) (hattrs : ∀ a ∈ attrs, isPlainName a.name ∧
      a.value.toList.all isLegible) (hnodup : (attrs.map (·.name)).Nodup) :
    isLegibleTag name attrs := by
  have hall : attrs.all isLegibleAttribute = true := by
    rw [List.all_eq_true]
    intro a ha
    rw [isLegibleAttribute, (isName_of_isPlainName (hattrs a ha).1).1, (hattrs a ha).2]
    rfl
  rw [isLegibleTag, (isName_of_isPlainName hname).1, (isName_of_isPlainName hname).2, hall,
    decide_eq_true hnodup]
  rfl

/-! ## Tags and texts -/

/-- In ordinary content a start tag with plain names, of which no two attributes share one, is read
back with its last character and not before, and leaves ordinary content.  A text is read back as
its characters, whatever follows.  The values and the text may hold any characters but U+0000 and
carriage returns. -/
theorem written_reads_back {name : String} {attrs : List Attribute} {text : String}
    (hname : isPlainName name)
    (hattrs : ∀ a ∈ attrs, isPlainName a.name ∧ a.value.toList.all isLegible)
    (hnodup : (attrs.map (·.name)).Nodup) (htext : text.toList.all isLegible)
    (last : Option String) (foreign : Bool) :
    let content : Lexer := ⟨.content .data, last⟩
    let tag := (Markup.startTag name attrs).toList
    tag.getLast? = some '>' ∧
      content.read foreign tag = (⟨.content .data, some name⟩, [.startTag { name, attrs }]) ∧
      (∀ front, front <+: tag → front ≠ tag → (content.read foreign front).2 = []) ∧
      (∀ more, content.tokens foreign (tag ++ more) =
        .startTag { name, attrs } :: Lexer.tokens ⟨.content .data, some name⟩ foreign more) ∧
      ∀ more, content.tokens foreign ((Markup.escapeText text).toList ++ more) =
        chars text.toList ++ content.tokens foreign more := by
  intro content tag
  have hlegible := isLegibleTag_of_isPlainName hname hattrs hnodup
  obtain ⟨body, s', htag, hscans, hend⟩ := scans_startTag hlegible
  have hsilent : Scans (.content .data) ('<' :: body) [] s' :=
    .silent .tagOpen (by decide) (fun _ _ => rfl) hscans
  have hwhole : Scans (.content .data) tag [.startTag { name, attrs }] (.content .data) := by
    have hclose := hsilent.append (.last (by decide) hend.close)
    rwa [← htag] at hclose
  refine ⟨?_, hwhole.read_eq last foreign, ?_, ?_, ?_⟩
  · rw [show tag = '<' :: body ++ ['>'] from htag, List.getLast?_concat]
  · intro front hfront hne
    rw [show tag = '<' :: body ++ ['>'] from htag] at hfront hne
    have hpart := (List.prefix_concat_iff.mp hfront).resolve_left hne
    obtain ⟨s₁, hfirst⟩ := hsilent.of_prefix rfl hpart
    rw [hfirst.read_eq]
  · exact fun more => (spells_startTag hlegible).tokens_append last foreign more
  · intro more
    have hspells := spells_escapeText htext
    have hlast : lastStartAmong last (chars text.toList) = last := by
      induction text.toList with
      | nil => rfl
      | cons c cs ih => exact ih
    have htokens := hspells.tokens_append last foreign more
    rw [hlast] at htokens
    rw [Markup.escapeText, String.toList_ofList]
    exact htokens

/-- A bare attribute before one whose value holds a quote, a tag, references with and without a
semicolon and a no-break space, and a text that looks like a tag and a reference. -/
theorem written_reads_back_of_quotes :
    let attrs : List Attribute :=
      [⟨"type", "text"⟩, ⟨"disabled", ""⟩, ⟨"value", "a\"b<c/>&lt &quot;\u00a0"⟩]
    let text := "</p> &amp; &lt\u00a0>"
    Markup.startTag "input" attrs =
        "<input type=\"text\" disabled value=\"a&quot;b<c/>&amp;lt &amp;quot;\u00a0\">" ∧
      Lexer.read {} false (Markup.startTag "input" attrs).toList =
        (⟨.content .data, some "input"⟩, [.startTag { name := "input", attrs }]) ∧
      Markup.escapeText text = "&lt;/p&gt; &amp;amp; &amp;lt&nbsp;&gt;" ∧
      Lexer.tokens {} false (Markup.escapeText text).toList = chars text.toList := by
  intro attrs text
  have hname : isPlainName "input" := by decide
  have hattrs : ∀ a ∈ attrs, isPlainName a.name ∧ a.value.toList.all isLegible := by decide
  have htext : text.toList.all isLegible := by decide
  obtain ⟨-, hread, -, -, htokens⟩ :=
    written_reads_back hname hattrs (by decide) htext none false
  have hend := htokens []
  rw [List.append_nil] at hend
  exact ⟨by decide +kernel, hread, by decide +kernel, hend.trans (List.append_nil _)⟩

end Lexer
end Html
end LiveMarkup
