import LiveMarkup.Template.Expr

/-!
# Marks

A template text falls into marks: runs of plain text, placeholders `#{…}` and block tags
`{{name path}}` and `{{/name}}`.  What only looks like a mark is plain text: a `#{` that no brace
closes, with everything after it, and a `{{` that starts no block tag.

A placeholder ends at the first closing brace outside quotes, or if there is none at the first
closing brace of all.  Nothing is decided here about what stands inside a placeholder or how tags
pair up.

Main definitions:

- `Tag`: a block tag, opening or closing.
- `Mark`: a piece of a template text.
- `Mark.ofChars`: the marks of a text.
- `Mark.chars`: the text of a mark.

Main results:

- `Mark.flatMap_chars_ofChars`: the marks of a text lose nothing of it.
-/

namespace LiveMarkup

/-! ## Block tags -/

/-- A block tag. -/
inductive Tag where
  | opening (name : List Char) (path : List String)
  | closing (name : List Char)

namespace Tag

/-- Whether a text can name a block. -/
def isName (cs : List Char) : Bool :=
  !cs.isEmpty && cs.all fun c => c.isAlphanum || c == '_'

/-- The tag written between double braces: a slash and a name, or a name, a blank and a path. -/
def ofInner? (inner : List Char) : Option Tag :=
  match Text.trim inner with
  | '/' :: rest =>
    let name := Text.trim rest
    if isName name then some (.closing name) else none
  | cs =>
    let name := cs.takeWhile fun c => !Text.isBlank c
    match cs.dropWhile fun c => !Text.isBlank c with
    | [] => none
    | _ :: arg =>
      match Expr.path? (Text.trim arg) with
      | some path => if isName name then some (.opening name path) else none
      | none => none

end Tag

/-! ## Marks -/

/-- A piece of a template text. -/
inductive Mark where
  | plain (run : List Char)
  | placeholder (source : List Char)
  | tag (inner : List Char) (tag : Tag)

namespace Mark

/-- The text of a mark. -/
def chars : Mark → List Char
  | .plain run => run
  | .placeholder source => ['#', '\x7b'] ++ source ++ ['\x7d']
  | .tag inner _ => ['\x7b', '\x7b'] ++ inner ++ ['\x7d', '\x7d']

/-- Put a character of plain text before marks, joining it to a run that they start with. -/
def consPlain (c : Char) : List Mark → List Mark
  | .plain run :: rest => .plain (c :: run) :: rest
  | rest => .plain [c] :: rest

/-- What comes before the first closing brace outside quotes, and what follows it.  A backslash
inside quotes hides the next character. -/
def closeOutsideQuotes? : Option Char → List Char → Option (List Char × List Char)
  | _, [] => none
  | some quote, c :: rest =>
    if c = '\\' then
      match rest with
      | [] => none
      | e :: rest =>
        (closeOutsideQuotes? (some quote) rest).map fun r => (c :: e :: r.1, r.2)
    else if c = quote then (closeOutsideQuotes? none rest).map fun r => (c :: r.1, r.2)
    else (closeOutsideQuotes? (some quote) rest).map fun r => (c :: r.1, r.2)
  | none, c :: rest =>
    if c = '\x7d' then some ([], rest)
    else if c = '\'' ∨ c = '"' then
      (closeOutsideQuotes? (some c) rest).map fun r => (c :: r.1, r.2)
    else (closeOutsideQuotes? none rest).map fun r => (c :: r.1, r.2)

/-- What comes before the first closing brace, and what follows it. -/
def closeAnywhere? : List Char → Option (List Char × List Char)
  | [] => none
  | c :: rest =>
    if c = '\x7d' then some ([], rest)
    else (closeAnywhere? rest).map fun r => (c :: r.1, r.2)

/-- The source of a placeholder after its `#{`, and what follows its closing brace. -/
def placeholder? (cs : List Char) : Option (List Char × List Char) :=
  (closeOutsideQuotes? none cs).or (closeAnywhere? cs)

/-- What comes before the first pair of closing braces, and what follows it. -/
def closePair? : List Char → Option (List Char × List Char)
  | [] => none
  | [_] => none
  | c :: d :: rest =>
    if c = '\x7d' ∧ d = '\x7d' then some ([], rest)
    else (closePair? (d :: rest)).map fun r => (c :: r.1, r.2)

/-- The inner text of a block tag after its `{{`, the tag, and what follows it. -/
def tag? (cs : List Char) : Option (List Char × Tag × List Char) :=
  match closePair? cs with
  | none => none
  | some (inner, rest) => (Tag.ofInner? inner).map fun tag => (inner, tag, rest)

/-! ### Nothing is lost -/

/-- What is read up to a brace outside quotes, the brace and the rest make up the text. -/
theorem eq_of_closeOutsideQuotes? {quote : Option Char} {cs source rest : List Char}
    (h : closeOutsideQuotes? quote cs = some (source, rest)) : cs = source ++ '\x7d' :: rest := by
  fun_induction closeOutsideQuotes? quote cs generalizing source rest <;> grind [Option.map_eq_some_iff]

/-- What is read up to the first brace, the brace and the rest make up the text. -/
theorem eq_of_closeAnywhere? {cs source rest : List Char}
    (h : closeAnywhere? cs = some (source, rest)) : cs = source ++ '\x7d' :: rest := by
  fun_induction closeAnywhere? cs generalizing source rest <;> grind [Option.map_eq_some_iff]

/-- Whichever brace ends a placeholder, nothing of the text behind its opening is lost. -/
theorem eq_of_placeholder? {cs source rest : List Char}
    (h : placeholder? cs = some (source, rest)) : cs = source ++ '\x7d' :: rest := by
  unfold placeholder? at h
  rcases Option.or_eq_some_iff.1 h with h | ⟨_, h⟩
  · exact eq_of_closeOutsideQuotes? h
  · exact eq_of_closeAnywhere? h

/-- What is read up to a pair of braces, the pair and the rest make up the text. -/
theorem eq_of_closePair? {cs inner rest : List Char}
    (h : closePair? cs = some (inner, rest)) : cs = inner ++ '\x7d' :: '\x7d' :: rest := by
  fun_induction closePair? cs generalizing inner rest <;> grind [Option.map_eq_some_iff]

/-- A tag ends in a pair of braces, and nothing of the text behind its opening is lost. -/
theorem eq_of_tag? {cs inner rest : List Char} {tag : Tag}
    (h : tag? cs = some (inner, tag, rest)) : cs = inner ++ '\x7d' :: '\x7d' :: rest := by
  unfold tag? at h
  split at h
  · simp at h
  · rename_i hclose
    obtain ⟨t, _, ht⟩ := Option.map_eq_some_iff.1 h
    simp only [Prod.mk.injEq] at ht
    exact ht.1 ▸ ht.2.2 ▸ eq_of_closePair? hclose

/-! ### The marks of a text -/

/-- The marks of a text, from left to right. -/
def ofChars (cs : List Char) : List Mark :=
  match cs with
  | [] => []
  | '#' :: '\x7b' :: rest =>
    match _h : placeholder? rest with
    | some (source, after) => .placeholder source :: ofChars after
    | none => [.plain ('#' :: '\x7b' :: rest)]
  | '\x7b' :: '\x7b' :: rest =>
    match _h : tag? rest with
    | some (inner, t, after) => .tag inner t :: ofChars after
    | none => consPlain '\x7b' (consPlain '\x7b' (ofChars rest))
  | c :: rest => consPlain c (ofChars rest)
termination_by cs.length
decreasing_by
  · have := congrArg List.length (eq_of_placeholder? _h)
    simp at this ⊢
    omega
  · have := congrArg List.length (eq_of_tag? _h)
    simp at this ⊢
    omega
  · simp only [List.length_cons]
    omega
  · simp only [List.length_cons]
    omega

/-- A character in front of marks is the first one of what is written for them. -/
theorem flatMap_chars_consPlain (c : Char) (marks : List Mark) :
    (consPlain c marks).flatMap chars = c :: marks.flatMap chars := by
  unfold consPlain
  split <;> simp [chars]

/-- The texts of the marks of a text, one after the other, are the text. -/
theorem flatMap_chars_ofChars (cs : List Char) : (ofChars cs).flatMap chars = cs := by
  fun_induction ofChars cs with
  | case1 => rfl
  | case2 rest source after h ih => simp [chars, ih, eq_of_placeholder? h]
  | case3 => simp [chars]
  | case4 rest inner t after h ih => simp [chars, ih, eq_of_tag? h]
  | case5 => simp_all [flatMap_chars_consPlain]
  | case6 => simp_all [flatMap_chars_consPlain]

end Mark
end LiveMarkup
