import LiveMarkup.Proofs.Template.Sources

/-!
# The grammar of expressions

The readers of expressions are written by hand: they take the longest run of a kind, look at what
follows and check the run afterwards.  Here the same language is described without them, by what
may stand where.  A number and a path end where the longest run ends, because only a blank, a comma
or a parenthesis can follow them, and none of these is part of a run.

The texts of paths, strings and numbers come first: each is read up to its end, and nothing else is
read as one.

Main definitions:

- `Expr.Quoting`, `Expr.Numeral`, `Expr.Dotted`: the insides of strings, numbers and dotted paths.
- `Operand.Derived`, `Operand.Listed`, `Expr.Derived`: arguments, lists of them, and expressions.
- `Expr.Written`: an expression with blanks around it.
- `Expr.Ends`: a text after which a path or a number has ended.

Main results:

- `Expr.path?_iff_dotted`: a dotted path is read from its whole text.
- `Expr.pathHere?_of_dotted`, `Expr.dotted_of_pathHere?`: paths at the start of a text.
- `Expr.literal?_of_quoting`, `Expr.literal?_of_numeral`, `Expr.derived_of_literal?`: literals.
-/

namespace LiveMarkup

/-! ## The grammar -/

/-- A text of blanks, maybe empty. -/
def Text.Blank (cs : List Char) : Prop :=
  ∀ c ∈ cs, isBlank c = true

namespace Expr

/-- The inside of a string and the characters that it stands for.  No closing quote stands in it
without a backslash, and each backslash has a character to go with. -/
inductive Quoting (quote : Char) : List Char → List Char → Prop where
  | nil : Quoting quote [] []
  | char {c : Char} {cs body : List Char} (hquote : c ≠ quote) (hslash : c ≠ '\\')
      (h : Quoting quote cs body) : Quoting quote (c :: cs) (c :: body)
  | newline {cs body : List Char} (h : Quoting quote cs body) :
      Quoting quote ('\\' :: 'n' :: cs) ('\n' :: body)
  | tab {cs body : List Char} (h : Quoting quote cs body) :
      Quoting quote ('\\' :: 't' :: cs) ('\t' :: body)
  | escape {c : Char} {cs body : List Char} (hnewline : c ≠ 'n') (htab : c ≠ 't')
      (h : Quoting quote cs body) : Quoting quote ('\\' :: c :: cs) (c :: body)

/-- A text that can be a number: it starts with a digit or a minus sign, and all else are digits
and points. -/
inductive NumberText : List Char → Prop where
  | positive {c : Char} {run : List Char} (hc : c.isDigit = true)
      (hrun : ∀ d ∈ run, isNumberChar d = true) : NumberText (c :: run)
  | negative {run : List Char} (hrun : ∀ d ∈ run, isNumberChar d = true) : NumberText ('-' :: run)

/-- A number and its value: a whole number if it is one in range, and otherwise a double. -/
inductive Numeral (cs : List Char) : Value → Prop where
  | int {n : Int} (htext : NumberText cs) (h : Decimal.int64? cs = some n) : Numeral cs (.int n)
  | float {x : Float} (htext : NumberText cs) (hint : Decimal.int64? cs = none)
      (h : Decimal.fraction? cs = some x) : Numeral cs (.float x)

/-- A dotted path and its segments: an identifier, and after each point an identifier or a
position. -/
def Dotted (cs : List Char) (segments : List String) : Prop :=
  ∃ first rest, isIdent first = true ∧
    (∀ part ∈ rest, isIdent part = true ∨ Decimal.isDigits part = true) ∧
    cs = first ++ rest.flatMap ('.' :: ·) ∧ segments = (first :: rest).map String.ofList

/-- The paths that are literals instead. -/
def keyword? : List String → Option Value
  | ["true"] => some (.bool true)
  | ["false"] => some (.bool false)
  | ["null"] => some .null
  | _ => none

end Expr

namespace Operand

/-- The texts of an argument. -/
inductive Derived : Operand → List Char → Prop where
  | string {quote : Char} {cs body : List Char} (hquote : quote = '\'' ∨ quote = '"')
      (h : Expr.Quoting quote cs body) :
      Derived (.literal (.str (String.ofList body))) (quote :: (cs ++ [quote]))
  | number {cs : List Char} {v : Value} (h : Expr.Numeral cs v) : Derived (.literal v) cs
  | keyword {cs : List Char} {segments : List String} {v : Value} (h : Expr.Dotted cs segments)
      (hv : Expr.keyword? segments = some v) : Derived (.literal v) cs
  | path {cs : List Char} {segments : List String} (h : Expr.Dotted cs segments)
      (hnone : Expr.keyword? segments = none) : Derived (.path segments) cs

/-- The texts of one or more arguments, with commas between them and blanks around each. -/
inductive Listed : List Operand → List Char → Prop where
  | last {o : Operand} {before cs after : List Char} (hbefore : Text.Blank before)
      (h : o.Derived cs) (hafter : Text.Blank after) : Listed [o] (before ++ cs ++ after)
  | cons {o : Operand} {others : List Operand} {before cs after more : List Char}
      (hbefore : Text.Blank before) (h : o.Derived cs) (hafter : Text.Blank after)
      (hmore : Listed others more) : Listed (o :: others) (before ++ cs ++ after ++ ',' :: more)

/-- The texts between the parentheses of a call: blanks only, or a list of arguments. -/
def Arguments (args : List Operand) (cs : List Char) : Prop :=
  args = [] ∧ Text.Blank cs ∨ Listed args cs

end Operand

namespace Expr

/-- The texts of an expression without blanks around it. -/
inductive Derived : Expr → List Char → Prop where
  | operand {o : Operand} {cs : List Char} (h : o.Derived cs) : Derived (.operand o) cs
  | call {name blanks inner : List Char} {args : List Operand} (hname : isIdent name = true)
      (hblanks : Text.Blank blanks) (hargs : Operand.Arguments args inner) :
      Derived (.call (String.ofList name) args) (name ++ blanks ++ '(' :: (inner ++ [')']))

/-- The texts of an expression: blanks may stand around it. -/
def Written (e : Expr) (cs : List Char) : Prop :=
  ∃ before core after, cs = before ++ core ++ after ∧ Text.Blank before ∧ e.Derived core ∧
    Text.Blank after

end Expr

/-! ## Blanks -/

namespace Text

/-- Blanks at the start of a text are trimmed. -/
theorem trimLeft_append {blanks : List Char} (h : Blank blanks) (rest : List Char) :
    trimLeft (blanks ++ rest) = trimLeft rest :=
  List.dropWhile_append_of_pos h

/-- Trimming ends at the first character that is not blank. -/
theorem trimLeft_append_cons {blanks : List Char} (h : Blank blanks) {c : Char}
    (hc : isBlank c = false) (rest : List Char) : trimLeft (blanks ++ c :: rest) = c :: rest := by
  rw [trimLeft_append h, trimLeft, List.dropWhile_cons_of_neg]
  simp [hc]

theorem trimLeft_trimLeft (cs : List Char) : trimLeft (trimLeft cs) = trimLeft cs :=
  List.dropWhile_idempotent _ _

/-- Trimming leaves nothing of a text exactly if it is blank. -/
theorem trimLeft_eq_nil_iff {cs : List Char} : trimLeft cs = [] ↔ Blank cs :=
  List.dropWhile_eq_nil_iff

/-- A text is blanks and what trimming leaves of it. -/
theorem exists_blank_append_trimLeft (cs : List Char) :
    ∃ blanks, Blank blanks ∧ cs = blanks ++ trimLeft cs :=
  ⟨cs.takeWhile isBlank, fun _ => List.mem_takeWhile_imp, List.takeWhile_append_dropWhile.symm⟩

end Text

namespace Expr

/-! ## Characters -/

/-- What stands in a number may stand in a path. -/
theorem isPathChar_of_isNumberChar {c : Char} (h : isNumberChar c = true) :
    isPathChar c = true := by
  simp only [isNumberChar, isPathChar, isIdentChar, Char.isAlphanum, Bool.or_eq_true] at h ⊢
  tauto

/-- What begins an identifier may stand in a path. -/
theorem isPathChar_of_isIdentStart {c : Char} (h : isIdentStart c = true) :
    isPathChar c = true := by
  simp only [isIdentStart, isPathChar, isIdentChar, Char.isAlphanum, Bool.or_eq_true] at h ⊢
  tauto

/-- No blank is part of a path: blanks stand below or above all characters of paths. -/
theorem isPathChar_of_isBlank {c : Char} (h : Text.isBlank c = true) : isPathChar c = false := by
  rw [Bool.eq_false_iff]
  intro hpath
  have hinside : 32 < c.toNat ∧ c.toNat < 128 := by
    simp only [isPathChar, isIdentChar, Char.isAlphanum, Char.isAlpha, Char.isUpper, Char.isLower,
      Char.isDigit, Bool.or_eq_true, Bool.and_eq_true, beq_iff_eq, decide_eq_true_eq, ge_iff_le,
      UInt32.le_iff_toNat_le, Char.ext_iff, ← UInt32.toNat_inj] at hpath
    simp at hpath
    omega
  have hbeyond : c.toNat ≤ 32 ∨ 128 < c.toNat := by
    simp only [Text.isBlank, Bool.or_eq_true, Bool.and_eq_true, beq_iff_eq, decide_eq_true_eq,
      Char.le_def, UInt32.le_iff_toNat_le, Char.ext_iff, ← UInt32.toNat_inj] at h
    simp at h
    omega
  omega

/-- There are no blanks in a path. -/
theorem isBlank_of_isPathChar {c : Char} (h : isPathChar c = true) : Text.isBlank c = false := by
  rw [Bool.eq_false_iff]
  intro hblank
  rw [isPathChar_of_isBlank hblank] at h
  cases h

/-- A text after which a path or a number has ended. -/
def Ends (rest : List Char) : Prop :=
  ∀ c ∈ rest.head?, isPathChar c = false

/-- A word that ends before a text ends before blanks in front of it. -/
theorem ends_append {blanks rest : List Char} (hblanks : Text.Blank blanks) (hrest : Ends rest) :
    Ends (blanks ++ rest) := by
  cases blanks with
  | nil => exact hrest
  | cons c blanks =>
    rintro _ ⟨⟩
    exact isPathChar_of_isBlank (hblanks c List.mem_cons_self)

/-- A span of characters stops exactly where the word ends. -/
theorem takeWhile_of_ends {p : Char → Bool} (hp : ∀ c, p c = true → isPathChar c = true)
    {front rest : List Char} (hfront : ∀ c ∈ front, p c = true) (hrest : Ends rest) :
    (front ++ rest).takeWhile p = front ∧ (front ++ rest).dropWhile p = rest := by
  have hstop : ∀ c ∈ rest.head?, ¬ p c = true := by
    intro c hc hpc
    have hends := hrest c hc
    rw [hp c hpc] at hends
    cases hends
  rw [List.takeWhile_append_of_pos hfront, List.dropWhile_append_of_pos hfront]
  cases rest with
  | nil => simp
  | cons c rest => simp [hstop c rfl]

/-! ## Paths -/

/-- A text without points is one part. -/
theorem splitPoints_of_notMem {part : List Char} (h : '.' ∉ part) : splitPoints part = [part] := by
  induction part with
  | nil => rfl
  | cons c part ih =>
    rw [List.mem_cons, not_or] at h
    rw [splitPoints, if_neg (Ne.symm h.1), ih h.2]

/-- The first point ends the first part. -/
theorem splitPoints_append_cons {part : List Char} (h : '.' ∉ part) (rest : List Char) :
    splitPoints (part ++ '.' :: rest) = part :: splitPoints rest := by
  induction part with
  | nil => rw [List.nil_append, splitPoints, if_pos rfl]
  | cons c part ih =>
    rw [List.mem_cons, not_or] at h
    rw [List.cons_append, splitPoints, if_neg (Ne.symm h.1), ih h.2]

/-- Parts without points are found again between the points. -/
theorem splitPoints_flatMap {first : List Char} {rest : List (List Char)}
    (h : ∀ part ∈ first :: rest, '.' ∉ part) :
    splitPoints (first ++ rest.flatMap ('.' :: ·)) = first :: rest := by
  induction rest generalizing first with
  | nil =>
    rw [List.flatMap_nil, List.append_nil]
    exact splitPoints_of_notMem (h first List.mem_cons_self)
  | cons part rest ih =>
    rw [List.forall_mem_cons] at h
    rw [List.flatMap_cons, List.cons_append, splitPoints_append_cons h.1, ih h.2]

/-- A text is its parts with points between them. -/
theorem exists_splitPoints (cs : List Char) :
    ∃ first rest, splitPoints cs = first :: rest ∧ cs = first ++ rest.flatMap ('.' :: ·) := by
  induction cs with
  | nil => exact ⟨[], [], rfl, rfl⟩
  | cons c cs ih =>
    obtain ⟨first, rest, hsplit, hcs⟩ := ih
    rw [splitPoints]
    split
    · next hpoint => exact ⟨[], first :: rest, by rw [hsplit], by simp [hpoint, ← hcs]⟩
    · exact ⟨c :: first, rest, by rw [hsplit], by rw [hcs, List.cons_append]⟩

/-- An identifier holds characters of paths and no point. -/
theorem forall_of_isIdent {part : List Char} (h : isIdent part = true) :
    ∀ c ∈ part, isPathChar c = true ∧ c ≠ '.' := by
  cases part with
  | nil => cases h
  | cons first rest =>
    rw [isIdent, Bool.and_eq_true, List.all_eq_true] at h
    rw [List.forall_mem_cons]
    refine ⟨⟨isPathChar_of_isIdentStart h.1, ?_⟩, fun c hc => ⟨?_, ?_⟩⟩
    · rintro rfl
      exact absurd h.1 (by decide)
    · simp [isPathChar, h.2 c hc]
    · rintro rfl
      exact absurd (h.2 _ hc) (by decide)

/-- Digits are characters of paths, and no point is among them. -/
theorem forall_of_isDigits {part : List Char} (h : Decimal.isDigits part = true) :
    ∀ c ∈ part, isPathChar c = true ∧ c ≠ '.' := by
  rw [Decimal.isDigits, Bool.and_eq_true, List.all_eq_true] at h
  refine fun c hc => ⟨?_, ?_⟩
  · simp [isPathChar, isIdentChar, Char.isAlphanum, h.2 c hc]
  · rintro rfl
    exact absurd (h.2 _ hc) (by decide)

/-- A dotted path is read from its whole text. -/
theorem path?_iff_dotted {cs : List Char} {segments : List String} :
    path? cs = some segments ↔ Dotted cs segments := by
  have hparts {first : List Char} {rest : List (List Char)} :
      isPath (first :: rest) = true ↔ isIdent first = true ∧
        ∀ part ∈ rest, isIdent part = true ∨ Decimal.isDigits part = true := by
    simp [isPath]
  constructor
  · intro h
    obtain ⟨first, rest, hsplit, hcs⟩ := exists_splitPoints cs
    rw [path?, hsplit] at h
    split at h
    · next hpath =>
      cases h
      obtain ⟨hfirst, hrest⟩ := hparts.mp hpath
      exact ⟨first, rest, hfirst, hrest, hcs, rfl⟩
    · cases h
  · rintro ⟨first, rest, hfirst, hrest, rfl, rfl⟩
    have hpoints : ∀ part ∈ first :: rest, '.' ∉ part := by
      rw [List.forall_mem_cons]
      refine ⟨fun hmem => (forall_of_isIdent hfirst _ hmem).2 rfl, fun part hpart hmem => ?_⟩
      rcases hrest part hpart with hident | hdigits
      · exact (forall_of_isIdent hident _ hmem).2 rfl
      · exact (forall_of_isDigits hdigits _ hmem).2 rfl
    rw [path?, splitPoints_flatMap hpoints]
    exact if_pos (hparts.mpr ⟨hfirst, hrest⟩)

namespace Dotted

/-- A written path holds nothing but characters of paths. -/
theorem forall_isPathChar {cs : List Char} {segments : List String} (h : Dotted cs segments) :
    ∀ c ∈ cs, isPathChar c = true := by
  obtain ⟨first, rest, hfirst, hrest, rfl, -⟩ := h
  rw [List.forall_mem_append]
  refine ⟨fun c hc => (forall_of_isIdent hfirst c hc).1, fun c hc => ?_⟩
  obtain ⟨part, hpart, hmem⟩ := List.mem_flatMap.mp hc
  rcases List.mem_cons.mp hmem with rfl | hmem
  · rfl
  · rcases hrest part hpart with hident | hdigits
    · exact (forall_of_isIdent hident c hmem).1
    · exact (forall_of_isDigits hdigits c hmem).1

/-- A written path begins as an identifier does. -/
theorem exists_cons {cs : List Char} {segments : List String} (h : Dotted cs segments) :
    ∃ c rest, cs = c :: rest ∧ isIdentStart c = true := by
  obtain ⟨first, rest, hfirst, -, rfl, -⟩ := h
  cases first with
  | nil => cases hfirst
  | cons c first =>
    rw [isIdent, Bool.and_eq_true] at hfirst
    exact ⟨c, _, rfl, hfirst.1⟩

/-- A path of one segment is an identifier. -/
theorem singleton_iff {cs : List Char} {name : String} :
    Dotted cs [name] ↔ isIdent cs = true ∧ String.ofList cs = name := by
  constructor
  · rintro ⟨first, rest, hfirst, -, rfl, hsegments⟩
    cases rest with
    | nil => simp_all
    | cons part rest => simp at hsegments
  · rintro ⟨hident, rfl⟩
    exact ⟨cs, [], hident, by simp, by simp, rfl⟩

end Dotted

/-- What a path stands for is decided by its segments. -/
theorem operandOfPath_eq (segments : List String) :
    operandOfPath segments = match keyword? segments with
      | some v => .literal v
      | none => .path segments := by
  unfold operandOfPath keyword?
  split_ifs <;> simp_all

/-- A path is read up to its end, together with the blanks behind it. -/
theorem pathHere?_of_dotted {cs : List Char} {segments : List String} (h : Dotted cs segments)
    {rest : List Char} (hrest : Ends rest) :
    pathHere? (cs ++ rest) = some (segments, Text.trimLeft rest) := by
  obtain ⟨htake, hdrop⟩ := takeWhile_of_ends (fun _ => id) h.forall_isPathChar hrest
  rw [pathHere?, htake, hdrop, path?_iff_dotted.mpr h, Option.map_some]

/-- What the reader takes as a path is a written one, with blanks behind it. -/
theorem dotted_of_pathHere? {cs rest : List Char} {segments : List String}
    (h : pathHere? cs = some (segments, rest)) :
    ∃ front blanks, cs = front ++ blanks ++ rest ∧ Dotted front segments ∧ Text.Blank blanks := by
  obtain ⟨found, hfound, heq⟩ := Option.map_eq_some_iff.mp h
  cases heq
  obtain ⟨blanks, hblanks, hdrop⟩ := Text.exists_blank_append_trimLeft (cs.dropWhile isPathChar)
  refine ⟨_, blanks, ?_, path?_iff_dotted.mp hfound, hblanks⟩
  rw [List.append_assoc, ← hdrop, List.takeWhile_append_dropWhile]

/-! ## Literals -/

/-- A string is read up to its closing quote. -/
theorem quoted?_of_quoting {quote : Char} (hquote : quote ≠ '\\') {cs body : List Char}
    (h : Quoting quote cs body) (rest : List Char) :
    quoted? quote (cs ++ quote :: rest) = some (body, rest) := by
  induction h with
  | nil =>
    rw [List.nil_append, quoted?.eq_def]
    simp
  | char hc hslash _ ih =>
    rw [List.cons_append, quoted?.eq_def]
    simp [hc, hslash, ih]
  | newline _ ih => simp [quoted?, hquote.symm, ih, unescape]
  | tab _ ih => simp [quoted?, hquote.symm, ih, unescape]
  | escape hnewline htab _ ih => simp [quoted?, hquote.symm, ih, unescape]

/-- What the reader takes up to a quote is a quoting of the text that it returns. -/
theorem quoting_of_quoted? {quote : Char} {cs body rest : List Char}
    (h : quoted? quote cs = some (body, rest)) :
    ∃ front, cs = front ++ quote :: rest ∧ Quoting quote front body := by
  fun_induction quoted? quote cs generalizing body rest with
  | case1 => cases h
  | case2 tail =>
    cases h
    exact ⟨[], rfl, .nil⟩
  | case3 => cases h
  | case4 e tail hne ih =>
    obtain ⟨⟨body', rest'⟩, hbody, heq⟩ := Option.map_eq_some_iff.mp h
    cases heq
    obtain ⟨front, rfl, hfront⟩ := ih hbody
    refine ⟨'\\' :: e :: front, rfl, ?_⟩
    unfold unescape
    split
    · exact .newline hfront
    · exact .tab hfront
    · next hnewline htab => exact .escape hnewline htab hfront
  | case5 c tail hne hc ih =>
    obtain ⟨⟨body', rest'⟩, hbody, heq⟩ := Option.map_eq_some_iff.mp h
    cases heq
    obtain ⟨front, rfl, hfront⟩ := ih hbody
    exact ⟨c :: front, rfl, .char hne hc hfront⟩

/-- The value of a number is read exactly from its numerals. -/
theorem numberValue?_iff_numeral {cs : List Char} (htext : NumberText cs) {v : Value} :
    numberValue? cs = some v ↔ Numeral cs v := by
  rw [numberValue?]
  constructor
  · intro h
    split at h
    · next n hn =>
      cases h
      exact .int htext hn
    · next hn =>
      obtain ⟨x, hx, rfl⟩ := Option.map_eq_some_iff.mp h
      exact .float htext hn hx
  · rintro (⟨-, hn⟩ | ⟨-, hn, hx⟩)
    · rw [hn]
    · rw [hn, hx]
      rfl

/-- A numeral is written as a number. -/
theorem Numeral.text {cs : List Char} {v : Value} (h : Numeral cs v) : NumberText cs := by
  cases h <;> assumption

/-- A number begins with a digit or with a minus sign. -/
theorem NumberText.exists_cons {cs : List Char} (h : NumberText cs) :
    ∃ c tail, cs = c :: tail ∧ (c.isDigit = true ∨ c = '-') := by
  cases h with
  | positive hc _ => exact ⟨_, _, rfl, .inl hc⟩
  | negative _ => exact ⟨_, _, rfl, .inr rfl⟩

/-- No number starts as a path does. -/
theorem isIdentStart_of_begins {c : Char} (hc : c.isDigit = true ∨ c = '-') :
    isIdentStart c = false := by
  rcases hc with hdigit | rfl
  · rw [Bool.eq_false_iff]
    intro hstart
    simp only [Char.isDigit, Bool.and_eq_true, decide_eq_true_eq, ge_iff_le,
      UInt32.le_iff_toNat_le] at hdigit
    simp only [isIdentStart, Char.isAlpha, Char.isUpper, Char.isLower, Bool.or_eq_true,
      Bool.and_eq_true, beq_iff_eq, decide_eq_true_eq, ge_iff_le, UInt32.le_iff_toNat_le,
      Char.ext_iff, ← UInt32.toNat_inj] at hstart
    simp at hdigit hstart
    omega
  · rfl

/-- The span of a number is the whole of it, if a word ends behind it. -/
theorem numberSpan_of_numberText {cs rest : List Char} (h : NumberText cs) (hrest : Ends rest) :
    numberSpan (cs ++ rest) = (cs, rest) := by
  cases h with
  | @positive c run hc hrun =>
    have hall : ∀ d ∈ c :: run, isNumberChar d = true :=
      List.forall_mem_cons.mpr ⟨by simp [isNumberChar, hc], hrun⟩
    obtain ⟨htake, hdrop⟩ :=
      takeWhile_of_ends (fun _ => isPathChar_of_isNumberChar) hall hrest
    unfold numberSpan
    split
    · next heq =>
      cases heq
      exact absurd hc (by decide)
    · rw [htake, hdrop]
  | negative hrun =>
    obtain ⟨htake, hdrop⟩ :=
      takeWhile_of_ends (fun _ => isPathChar_of_isNumberChar) hrun hrest
    rw [List.cons_append, numberSpan, htake, hdrop]

/-- The span of a number and what follows it make up the text. -/
theorem exists_numberSpan {c : Char} (hc : c.isDigit = true ∨ c = '-') (tail : List Char) :
    c :: tail = (numberSpan (c :: tail)).1 ++ (numberSpan (c :: tail)).2 ∧
      NumberText (numberSpan (c :: tail)).1 := by
  have hrun (cs : List Char) : ∀ d ∈ cs.takeWhile isNumberChar, isNumberChar d = true :=
    fun _ => List.mem_takeWhile_imp
  unfold numberSpan
  split
  · next rest heq =>
    cases heq
    exact ⟨by simp, .negative (hrun tail)⟩
  · next hminus =>
    have hdigit : c.isDigit = true := hc.resolve_right fun heq => hminus tail (by rw [heq])
    have hnumber : isNumberChar c = true := by
      simp [isNumberChar, hdigit]
    refine ⟨List.takeWhile_append_dropWhile.symm, ?_⟩
    rw [List.takeWhile_cons_of_pos hnumber]
    exact .positive hdigit (hrun tail)

/-- A number is read up to its end. -/
theorem literal?_of_numeral {cs : List Char} {v : Value} (h : Numeral cs v) {rest : List Char}
    (hrest : Ends rest) : literal? (cs ++ rest) = some (v, rest) := by
  have hnumber : number? (cs ++ rest) = some (v, rest) := by
    rw [number?, numberSpan_of_numberText h.text hrest, (numberValue?_iff_numeral h.text).mpr h]
    rfl
  obtain ⟨c, tail, rfl, hc⟩ := h.text.exists_cons
  have hdouble : c ≠ '"' := by
    rintro rfl
    simp at hc
  have hsingle : c ≠ '\'' := by
    rintro rfl
    simp at hc
  rw [List.cons_append] at hnumber ⊢
  simp [literal?, hdouble, hsingle, hc, hnumber]

/-- A quoting between two quotes of its kind is read as the text that it stands for. -/
theorem literal?_of_quoting {quote : Char} (hquote : quote = '\'' ∨ quote = '"')
    {cs body : List Char} (h : Quoting quote cs body) (rest : List Char) :
    literal? (quote :: (cs ++ quote :: rest)) = some (.str (String.ofList body), rest) := by
  have hslash : quote ≠ '\\' := by
    rintro rfl
    simp at hquote
  simp [literal?, hquote.symm, quoted?_of_quoting hslash h]

/-- What is read as a literal is a string or a number. -/
theorem derived_of_literal? {cs rest : List Char} {v : Value} (h : literal? cs = some (v, rest)) :
    ∃ front, cs = front ++ rest ∧ (Operand.literal v).Derived front := by
  unfold literal? at h
  split at h
  · cases h
  · next c tail =>
    split at h
    · next hquote =>
      obtain ⟨⟨body, rest'⟩, hbody, heq⟩ := Option.map_eq_some_iff.mp h
      cases heq
      obtain ⟨front, rfl, hfront⟩ := quoting_of_quoted? hbody
      refine ⟨c :: (front ++ [c]), by simp, .string ?_ hfront⟩
      simpa [or_comm] using hquote
    · split at h
      · next hc =>
        obtain ⟨found, hfound, heq⟩ := Option.map_eq_some_iff.mp h
        cases heq
        have hfirst : c.isDigit = true ∨ c = '-' := by
          simpa using hc
        obtain ⟨hsplit, htext⟩ := exists_numberSpan hfirst tail
        exact ⟨_, hsplit, .number ((numberValue?_iff_numeral htext).mp hfound)⟩
      · cases h

end Expr
end LiveMarkup
