import LiveMarkup.Proofs.Patch.Keys
import LiveMarkup.Proofs.Text.Quoted
import LiveMarkup.Template.Registry
import LiveMarkup.Value.Text

/-!
# Literal forms tell values apart

The literal form of a value can be read off the front of a text.  Its first character tells the type
of the value; a whole number ends where its digits end, a name at its colon, and a list or a map at
the bracket that stands where a comma could.  So no two plain values have the same literal form.

Main definitions:

- `Value.isPlain`: null, booleans, whole numbers, strings, and lists and maps of such values.
- `Value.ReadsOff`: what is written for one of several things can be read off the front of a text.
- `Value.separated`: things with commas between them.
- `Value.Readable`: the literal form of a value can be read off.

Main results:

- `Value.separated_append_inj`: a sequence can be read off if its things can.
- `Value.exists_cons_chars`: the first character of a literal form tells the type.
- `Value.readable`: every plain value can be read off.
- `Value.literal_unambiguous`: plain values with the same literal form are the same.
-/

namespace LiveMarkup
namespace Value

/-! ## Reading off -/

/-- The characters that whole numbers are written with. -/
def isWholeChar (c : Char) : Bool :=
  c.isDigit || c == '-'

section Sequences

variable {α : Type} {written : α → List Char} {fits : α → Bool}

/-- What is written for one of the things that fit can be read off the front of a text, as long as
the text does not go on as a whole number would. -/
def ReadsOff (written : α → List Char) (fits : α → Bool) (a : α) : Prop :=
  ∀ (b : α) (rest rest' : List Char), fits b = true →
    Text.Stops isWholeChar rest → Text.Stops isWholeChar rest' →
    written a ++ rest = written b ++ rest' → a = b ∧ rest = rest'

/-- The things of a sequence after the first, each behind a comma. -/
def following (written : α → List Char) (more : List α) : List Char :=
  more.flatMap fun a => ',' :: ' ' :: written a

/-- Things written one after the other, with commas between them. -/
def separated (written : α → List Char) : List α → List Char
  | [] => []
  | a :: more => written a ++ following written more

variable {as bs : List α} {close : Char} {rest rest' : List Char}

/-- What follows a thing in a sequence is a comma or the closing bracket. -/
theorem stops_following (hclose : isWholeChar close = false) (more : List α) (rest : List Char) :
    Text.Stops isWholeChar (following written more ++ close :: rest) := by
  cases more with
  | nil => exact Text.stops_cons hclose rest
  | cons b more => exact Text.stops_cons rfl _

/-- The things after the first can be read off a text up to the closing bracket. -/
theorem following_append_inj (hclose : isWholeChar close = false) (hcomma : close ≠ ',')
    (hread : ∀ a ∈ as, ReadsOff written fits a) (hbs : bs.all fits = true)
    (h : following written as ++ close :: rest = following written bs ++ close :: rest') :
    as = bs ∧ rest = rest' := by
  induction as generalizing bs with
  | nil =>
    cases bs with
    | nil => exact ⟨rfl, (List.cons.inj h).2⟩
    | cons b bs => exact absurd (List.cons.inj h).1 hcomma
  | cons a as ih =>
    cases bs with
    | nil => exact absurd (List.cons.inj h).1.symm hcomma
    | cons b bs =>
      rw [List.all_cons, Bool.and_eq_true] at hbs
      rw [List.forall_mem_cons] at hread
      simp only [following, List.flatMap_cons, List.cons_append, List.append_assoc,
        List.cons_inj_right] at h
      obtain ⟨rfl, htail⟩ := hread.1 b _ _ hbs.1 (stops_following hclose as rest)
        (stops_following hclose bs rest') h
      obtain ⟨rfl, rfl⟩ := ih hread.2 hbs.2 htail
      exact ⟨rfl, rfl⟩

/-- A sequence can be read off a text up to the closing bracket, if nothing in it starts with that
bracket. -/
theorem separated_append_inj (hclose : isWholeChar close = false) (hcomma : close ≠ ',')
    (hopen : ∀ a rest rest', fits a = true → written a ++ rest ≠ close :: rest')
    (hread : ∀ a ∈ as, ReadsOff written fits a) (has : as.all fits = true)
    (hbs : bs.all fits = true)
    (h : separated written as ++ close :: rest = separated written bs ++ close :: rest') :
    as = bs ∧ rest = rest' := by
  cases as with
  | nil =>
    cases bs with
    | nil => exact ⟨rfl, (List.cons.inj h).2⟩
    | cons b bs =>
      rw [List.all_cons, Bool.and_eq_true] at hbs
      rw [separated, separated, List.append_assoc] at h
      exact absurd h.symm (hopen b _ _ hbs.1)
  | cons a as =>
    rw [List.all_cons, Bool.and_eq_true] at has
    rw [List.forall_mem_cons] at hread
    cases bs with
    | nil =>
      rw [separated, separated, List.append_assoc] at h
      exact absurd h (hopen a _ _ has.1)
    | cons b bs =>
      rw [List.all_cons, Bool.and_eq_true] at hbs
      rw [separated, separated, List.append_assoc, List.append_assoc] at h
      obtain ⟨rfl, hmore⟩ := hread.1 b _ _ hbs.1 (stops_following hclose as rest)
        (stops_following hclose bs rest') h
      obtain ⟨rfl, rfl⟩ := following_append_inj hclose hcomma hread.2 hbs.2 hmore
      exact ⟨rfl, rfl⟩

end Sequences

/-! ## Whole numbers -/

/-- A whole number is written with its digits, and a minus sign before them if it is negative. -/
theorem toList_intText (n : Int) :
    (intText n).toList =
      if n < 0 then '-' :: Nat.toDigits 10 n.natAbs else Nat.toDigits 10 n.natAbs := by
  simp [intText]

/-- A whole number is written with digits and a minus sign only. -/
theorem isWholeChar_of_mem_intText {n : Int} {c : Char} (hc : c ∈ (intText n).toList) :
    isWholeChar c = true := by
  have hdigit : ∀ c ∈ Nat.toDigits 10 n.natAbs, isWholeChar c = true := by
    intro c hc
    simp [isWholeChar, Nat.isDigit_of_mem_toDigits (by omega) (by omega) hc]
  rw [toList_intText] at hc
  split at hc
  · rcases List.mem_cons.mp hc with rfl | hc
    · rfl
    · exact hdigit c hc
  · exact hdigit c hc

/-- A whole number is told by its sign and its digits. -/
theorem intText_injective : Function.Injective intText := by
  intro m n h
  have hminus : ∀ a b : Nat, '-' :: Nat.toDigits 10 a ≠ Nat.toDigits 10 b := fun a b heq =>
    Key.not_mem_toDigits rfl b (heq ▸ List.mem_cons_self)
  have hchars := congrArg String.toList h
  rw [toList_intText, toList_intText] at hchars
  by_cases hm : m < 0 <;> by_cases hn : n < 0
  · rw [if_pos hm, if_pos hn, List.cons_inj_right] at hchars
    have habs := Key.toDigits_injective hchars
    omega
  · rw [if_pos hm, if_neg hn] at hchars
    exact absurd hchars (hminus _ _)
  · rw [if_neg hm, if_pos hn] at hchars
    exact absurd hchars.symm (hminus _ _)
  · rw [if_neg hm, if_neg hn] at hchars
    have habs := Key.toDigits_injective hchars
    omega

/-! ## Plain values -/

mutual

/-- Whether a value is null, a boolean, a whole number, a string, a list of such values or a map of
such values under identifiers. -/
def isPlain : Value → Bool
  | .null => true
  | .bool _ => true
  | .int _ => true
  | .float _ => false
  | .str _ => true
  | .list items => arePlain items
  | .map entries => areNamed entries
  | .helper _ => false

/-- Whether all of several values are plain. -/
def arePlain : List Value → Bool
  | [] => true
  | v :: rest => isPlain v && arePlain rest

/-- Whether all of several entries hold plain values under identifiers. -/
def areNamed : List (String × Value) → Bool
  | [] => true
  | (name, v) :: rest => (Registry.isIdentifier name && isPlain v) && areNamed rest

end

/-- Whether an entry holds a plain value under an identifier. -/
def isNamed (entry : String × Value) : Bool :=
  Registry.isIdentifier entry.1 && isPlain entry.2

theorem arePlain_eq_all (items : List Value) : arePlain items = items.all isPlain := by
  induction items with
  | nil => rfl
  | cons v rest ih => rw [arePlain, ih, List.all_cons]

theorem areNamed_eq_all (entries : List (String × Value)) :
    areNamed entries = entries.all isNamed := by
  induction entries with
  | nil => rfl
  | cons entry rest ih => rw [areNamed, ih, List.all_cons, isNamed]

/-! ## Literal forms -/

/-- The characters of the literal form of a value. -/
def chars (v : Value) : List Char :=
  (literal v).toList

/-- The characters of an entry of a map. -/
def entryChars (entry : String × Value) : List Char :=
  entry.1.toList ++ ':' :: ' ' :: chars entry.2

/-- The items of a list are written with commas between them. -/
theorem toList_literalItems (items : List Value) :
    (literalItems items).toList = separated chars items := by
  have hcons : ∀ (v : Value) (more : List Value), (literalItems (v :: more)).toList =
      chars v ++ following chars more := by
    intro v more
    induction more generalizing v with
    | nil => simp [literalItems, chars, following]
    | cons w more ih => simp [literalItems, chars, ih, following]
  cases items with
  | nil => rfl
  | cons v more => exact hcons v more

/-- The entries of a map are written with commas between them. -/
theorem toList_literalEntries (entries : List (String × Value)) :
    (literalEntries entries).toList = separated entryChars entries := by
  have hcons : ∀ (entry : String × Value) (more : List (String × Value)),
      (literalEntries (entry :: more)).toList =
        entryChars entry ++ following entryChars more := by
    intro entry more
    induction more generalizing entry with
    | nil => simp [literalEntries, entryChars, chars, following]
    | cons next more ih => simp [literalEntries, entryChars, chars, ih, following]
  cases entries with
  | nil => rfl
  | cons entry more => exact hcons entry more

/-- A list is written in brackets. -/
theorem chars_list_append (items : List Value) (rest : List Char) :
    chars (.list items) ++ rest = '[' :: (separated chars items ++ ']' :: rest) := by
  simp [chars, literal, toList_literalItems]

/-- A map is written in braces. -/
theorem chars_map_append (entries : List (String × Value)) (rest : List Char) :
    chars (.map entries) ++ rest = '\x7b' :: (separated entryChars entries ++ '\x7d' :: rest) := by
  simp [chars, literal, toList_literalEntries]

/-! ### The first character -/

/-- The type of the values whose literal forms start with a character. -/
def typeOfStart (c : Char) : String :=
  if c = 'n' then "null"
  else if c = 't' ∨ c = 'f' then "bool"
  else if c = '"' then "string"
  else if c = '[' then "list"
  else if c = '\x7b' then "map"
  else if isWholeChar c then "number"
  else ""

/-- What begins as a whole number does is a number. -/
theorem typeOfStart_of_isWholeChar {c : Char} (hc : isWholeChar c = true) :
    typeOfStart c = "number" := by
  have hne : ∀ d : Char, isWholeChar d = false → c ≠ d := by
    rintro d hd rfl
    rw [hc] at hd
    cases hd
  simp [typeOfStart, hc, hne 'n' rfl, hne 't' rfl, hne 'f' rfl, hne '"' rfl, hne '[' rfl,
    hne '\x7b' rfl]

/-- The first character of a literal form tells the type of the value. -/
theorem exists_cons_chars {v : Value} (hv : v.isPlain = true) :
    ∃ c rest, chars v = c :: rest ∧ typeOfStart c = v.typeName := by
  cases v with
  | null => exact ⟨'n', _, rfl, rfl⟩
  | bool b => cases b <;> exact ⟨_, _, rfl, rfl⟩
  | int n =>
    have hne : chars (.int n) ≠ [] := by
      rw [chars, literal, toList_intText]
      split
      · exact List.cons_ne_nil _ _
      · exact Nat.toDigits_ne_nil
    obtain ⟨c, rest, hchars⟩ := List.exists_cons_of_ne_nil hne
    refine ⟨c, rest, hchars, typeOfStart_of_isWholeChar (isWholeChar_of_mem_intText (n := n) ?_)⟩
    rw [chars, literal] at hchars
    rw [hchars]
    exact List.mem_cons_self
  | float f => cases hv
  | str s =>
    have hchars := Text.Quoted.toList_literal_append s []
    rw [List.append_nil] at hchars
    exact ⟨'"', _, hchars, rfl⟩
  | list items =>
    have hchars := chars_list_append items []
    rw [List.append_nil] at hchars
    exact ⟨'[', _, hchars, rfl⟩
  | map entries =>
    have hchars := chars_map_append entries []
    rw [List.append_nil] at hchars
    exact ⟨'\x7b', _, hchars, rfl⟩
  | helper h => cases hv

variable {v w : Value} {rest rest' : List Char}

/-- Texts that start with the literal forms of values of different types are different. -/
theorem typeName_eq (hv : v.isPlain = true) (hw : w.isPlain = true)
    (h : chars v ++ rest = chars w ++ rest') : v.typeName = w.typeName := by
  obtain ⟨c, cs, hc, hcv⟩ := exists_cons_chars hv
  obtain ⟨d, ds, hd, hdw⟩ := exists_cons_chars hw
  rw [hc, hd, List.cons_append, List.cons_append] at h
  rw [← hcv, ← hdw, (List.cons.inj h).1]

/-- No literal form starts with a closing bracket. -/
theorem chars_append_ne {v : Value} (hv : v.isPlain = true) {c : Char} (hc : typeOfStart c = "")
    (rest rest' : List Char) : chars v ++ rest ≠ c :: rest' := by
  intro h
  obtain ⟨d, ds, hd, htype⟩ := exists_cons_chars hv
  rw [hd, List.cons_append] at h
  rw [(List.cons.inj h).1, hc] at htype
  cases v <;> simp [typeName] at htype

/-! ### One form after the other -/

/-- The literal form of a value can be read off the front of a text. -/
def Readable (v : Value) : Prop :=
  ReadsOff chars isPlain v

/-- Null is read off what follows it. -/
theorem readable_null : Readable .null := by
  intro w rest rest' hw _ _ h
  have htype := typeName_eq rfl hw h
  cases w with
  | null => exact ⟨rfl, List.append_cancel_left h⟩
  | _ => simp [typeName] at htype

/-- A truth value is read off what follows it. -/
theorem readable_bool (b : Bool) : Readable (.bool b) := by
  intro w rest rest' hw _ _ h
  have htype := typeName_eq rfl hw h
  cases w with
  | bool c =>
    cases b <;> cases c
    · exact ⟨rfl, List.append_cancel_left h⟩
    · simp [chars, literal] at h
    · simp [chars, literal] at h
    · exact ⟨rfl, List.append_cancel_left h⟩
  | _ => simp [typeName] at htype

/-- A whole number is read off what follows it, if no digit does. -/
theorem readable_int (n : Int) : Readable (.int n) := by
  intro w rest rest' hw hrest hrest' h
  have htype := typeName_eq rfl hw h
  cases w with
  | int m =>
    obtain ⟨hchars, rfl⟩ := Text.run_append_inj (fun _ => isWholeChar_of_mem_intText)
      (fun _ => isWholeChar_of_mem_intText) hrest hrest' h
    exact ⟨congrArg Value.int (intText_injective (String.toList_inj.mp hchars)), rfl⟩
  -- Doubles have the same type name, and some of them the same text.
  | float f => cases hw
  | _ => simp [typeName] at htype

/-- A quoted text is read off what follows it. -/
theorem readable_str (s : String) : Readable (.str s) := by
  intro w rest rest' hw _ _ h
  have htype := typeName_eq rfl hw h
  cases w with
  | str t =>
    obtain ⟨rfl, rfl⟩ := Text.Quoted.literal_append_inj h
    exact ⟨rfl, rfl⟩
  | _ => simp [typeName] at htype

/-- A list of values that can be read off can be read off itself. -/
theorem readable_list {items : List Value} (hplain : isPlain (.list items) = true)
    (hread : ∀ v ∈ items, v.Readable) : Readable (.list items) := by
  intro w rest rest' hw _ _ h
  have htype := typeName_eq hplain hw h
  cases w with
  | list others =>
    rw [isPlain, arePlain_eq_all] at hplain hw
    rw [chars_list_append, chars_list_append, List.cons_inj_right] at h
    obtain ⟨rfl, rfl⟩ := separated_append_inj rfl (by decide)
      (fun v _ _ hv => chars_append_ne hv rfl _ _) hread hplain hw h
    exact ⟨rfl, rfl⟩
  | _ => simp [typeName] at htype

/-! ### Entries -/

/-- The characters that can stand in an identifier. -/
def isNameChar (c : Char) : Bool :=
  c.isAlphanum || c == '_' || c == '$'

/-- An identifier is not empty and holds characters of names only. -/
theorem exists_cons_of_isIdentifier {name : String} (h : Registry.isIdentifier name = true) :
    ∃ c cs, name.toList = c :: cs ∧ ∀ d ∈ c :: cs, isNameChar d = true := by
  unfold Registry.isIdentifier at h
  split at h
  · cases h
  · next c cs hchars =>
    rw [Bool.and_eq_true, List.all_eq_true] at h
    refine ⟨c, cs, hchars, List.forall_mem_cons.mpr ⟨?_, h.2⟩⟩
    have hstart := h.1
    simp only [isNameChar, Char.isAlphanum, Bool.or_eq_true] at hstart ⊢
    tauto

/-- An entry can be read off if its value can: its name ends at the colon. -/
theorem readsOff_entry {entry : String × Value} (hentry : isNamed entry = true)
    (hread : entry.2.Readable) : ReadsOff entryChars isNamed entry := by
  intro other rest rest' hother hrest hrest' h
  rw [isNamed, Bool.and_eq_true] at hentry hother
  simp only [entryChars, List.append_assoc, List.cons_append] at h
  obtain ⟨c, cs, hname, hnameChars⟩ := exists_cons_of_isIdentifier hentry.1
  obtain ⟨d, ds, hname', hnameChars'⟩ := exists_cons_of_isIdentifier hother.1
  rw [← hname] at hnameChars
  rw [← hname'] at hnameChars'
  obtain ⟨hnames, hvalues⟩ := Text.run_append_inj hnameChars hnameChars'
    (Text.stops_cons rfl _) (Text.stops_cons rfl _) h
  rw [List.cons_inj_right, List.cons_inj_right] at hvalues
  obtain ⟨hvalue, rfl⟩ := hread other.2 rest rest' hother.2 hrest hrest' hvalues
  exact ⟨Prod.ext (String.toList_inj.mp hnames) hvalue, rfl⟩

/-- An entry does not begin with a character that no name holds. -/
theorem entryChars_append_ne {entry : String × Value} (hentry : isNamed entry = true) {c : Char}
    (hc : isNameChar c = false) (rest rest' : List Char) :
    entryChars entry ++ rest ≠ c :: rest' := by
  intro h
  rw [isNamed, Bool.and_eq_true] at hentry
  obtain ⟨d, ds, hname, hchars⟩ := exists_cons_of_isIdentifier hentry.1
  rw [entryChars, hname, List.cons_append, List.cons_append] at h
  rw [← (List.cons.inj h).1, hchars d List.mem_cons_self] at hc
  cases hc

/-- A map can be read off if all its entries can. -/
theorem readable_map {entries : List (String × Value)} (hplain : isPlain (.map entries) = true)
    (hread : ∀ entry ∈ entries, ReadsOff entryChars isNamed entry) : Readable (.map entries) := by
  intro w rest rest' hw _ _ h
  have htype := typeName_eq hplain hw h
  cases w with
  | map others =>
    rw [isPlain, areNamed_eq_all] at hplain hw
    rw [chars_map_append, chars_map_append, List.cons_inj_right] at h
    obtain ⟨rfl, rfl⟩ := separated_append_inj rfl (by decide)
      (fun entry _ _ hentry => entryChars_append_ne hentry rfl _ _) hread hplain hw h
    exact ⟨rfl, rfl⟩
  | _ => simp [typeName] at htype

/-! ## Whole values -/

mutual

/-- Every plain value can be read off. -/
theorem readable : ∀ v : Value, v.isPlain = true → v.Readable
  | .null, _ => readable_null
  | .bool b, _ => readable_bool b
  | .int n, _ => readable_int n
  | .float _, h => by cases h
  | .str s, _ => readable_str s
  | .list items, h => readable_list h (readable_items items (by rwa [isPlain] at h))
  | .map entries, h => readable_map h (readable_entries entries (by rwa [isPlain] at h))
  | .helper _, h => by cases h

/-- Every plain value of a list can be read off. -/
theorem readable_items : ∀ items : List Value, arePlain items = true → ∀ v ∈ items, v.Readable
  | [], _ => by simp
  | v :: rest, h => by
    rw [arePlain, Bool.and_eq_true] at h
    exact List.forall_mem_cons.mpr ⟨readable v h.1, readable_items rest h.2⟩

/-- Every plain entry of a map can be read off. -/
theorem readable_entries : ∀ entries : List (String × Value), areNamed entries = true →
    ∀ entry ∈ entries, ReadsOff entryChars isNamed entry
  | [], _ => by simp
  | (name, v) :: rest, h => by
    rw [areNamed, Bool.and_eq_true, Bool.and_eq_true] at h
    refine List.forall_mem_cons.mpr ⟨?_, readable_entries rest h.2⟩
    exact readsOff_entry (by rw [isNamed, h.1.1, h.1.2]; rfl) (readable v h.1.2)

end

/-- Plain values with the same literal form are the same, the order of the entries of their maps
included. -/
theorem literal_unambiguous {v w : Value} (hv : v.isPlain = true) (hw : w.isPlain = true)
    (h : v.literal = w.literal) : v = w := by
  have hchars : chars v ++ [] = chars w ++ [] := by rw [chars, chars, h]
  exact (readable v hv w [] [] hw Text.stops_nil Text.stops_nil hchars).1

/-- A map that was put together in two ways, with brackets, separators and a control character in
its strings. -/
theorem literal_unambiguous_of_brackets_in_strings :
    let v : Value :=
      .map [("a", .list [.str "], \"\n", .int (-12), .list []]), ("$b", .str "\x01\\")]
    let w : Value := .map ((Entries.ofList [("a", .null), ("$b", .str (String.ofList
      [Char.ofNat 1, '\\']))]).insert "a" (.list (.str "], \"\n" :: [.int (3 - 15), .list []])))
    v.isPlain = true ∧ w.isPlain = true ∧
      v.literal = "\x7ba: [\"], \\\"\\n\", -12, []], $b: \"\\u0001\\\\\"\x7d" ∧
      v.literal = w.literal ∧ v = w := by
  intro v w
  have hv : v.isPlain = true := by decide
  have hw : w.isPlain = true := by decide
  have hsame : v.literal = w.literal := by decide
  exact ⟨hv, hw, by decide, hsame, literal_unambiguous hv hw hsame⟩

/-- Names that are no identifiers could be taken for several entries. -/
example : (Value.map [("a: 1, b", .int 2)]).literal =
    (Value.map [("a", .int 1), ("b", .int 2)]).literal := by
  decide

end Value
end LiveMarkup
