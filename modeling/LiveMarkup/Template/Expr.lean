import LiveMarkup.Text.Blank
import LiveMarkup.Value.Basic

/-!
# Expressions

A placeholder holds an expression: a dotted path, a literal, or the call of a helper by its name
with paths and literals for arguments.  Calls do not nest.

The readers below work on the characters that are left and give back what they leave.  The call of
a helper and a path start alike, so a path is read first and the parenthesis after it decides.

Main definitions:

- `Operand`, `Expr`: the expressions.
- `Expr.path?`: a dotted path from its whole text.
- `Expr.operand?`, `Expr.operands?`: an argument, and the arguments up to the closing parenthesis.
- `Expr.read?`: an expression from its whole text.
-/

namespace LiveMarkup

/-- A path or a literal: what can stand as an argument. -/
inductive Operand where
  | path (segments : List String)
  | literal (value : Value)

/-- What a placeholder shows. -/
inductive Expr where
  | operand (o : Operand)
  | call (name : String) (args : List Operand)

namespace Expr

/-! ## Identifiers and paths -/

/-- A character that can start an identifier of a path. -/
def isIdentStart (c : Char) : Bool :=
  c.isAlpha || c == '_' || c == '$' || c == '@'

/-- A character that can follow in an identifier. -/
def isIdentChar (c : Char) : Bool :=
  c.isAlphanum || c == '_' || c == '$'

/-- The parts of a text between its points; there is always at least one. -/
def splitPoints : List Char → List (List Char)
  | [] => [[]]
  | c :: rest =>
    if c = '.' then [] :: splitPoints rest
    else match splitPoints rest with
      | [] => [[c]]
      | part :: parts => (c :: part) :: parts

/-- Whether a part of a path is an identifier. -/
def isIdent : List Char → Bool
  | [] => false
  | c :: rest => isIdentStart c && rest.all isIdentChar

/-- Whether the parts of a path are identifiers or, after the first, positions. -/
def isPath : List (List Char) → Bool
  | [] => false
  | first :: rest =>
    isIdent first && rest.all fun part => isIdent part || Decimal.isDigits part

/-- The dotted path written by a whole text. -/
def path? (cs : List Char) : Option (List String) :=
  let parts := splitPoints cs
  if isPath parts then some (parts.map String.ofList) else none

/-- A character that can occur in a path, the parts and points alike. -/
def isPathChar (c : Char) : Bool :=
  isIdentChar c || c == '.' || c == '@'

/-! ## Literals -/

/-- The character that an escape inside a string stands for. -/
def unescape (c : Char) : Char :=
  match c with
  | 'n' => '\n'
  | 't' => '\t'
  | c => c

/-- The characters of a string up to its closing quote, and what follows the quote. -/
def quoted? (quote : Char) : List Char → Option (List Char × List Char)
  | [] => none
  | c :: rest =>
    if c = quote then some ([], rest)
    else if c = '\\' then
      match rest with
      | [] => none
      | e :: rest => (quoted? quote rest).map fun r => (unescape e :: r.1, r.2)
    else (quoted? quote rest).map fun r => (c :: r.1, r.2)

/-- A character of a number after its sign. -/
def isNumberChar (c : Char) : Bool :=
  c.isDigit || c == '.'

/-- A number as a value: whole if it is a whole number in range, else the nearest double. -/
def numberValue? (cs : List Char) : Option Value :=
  match Decimal.int64? cs with
  | some n => some (.int n)
  | none => (Decimal.fraction? cs).map .float

/-- The longest text that a number can take: a sign, digits and points. -/
def numberSpan (cs : List Char) : List Char × List Char :=
  match cs with
  | '-' :: rest => ('-' :: rest.takeWhile isNumberChar, rest.dropWhile isNumberChar)
  | rest => (rest.takeWhile isNumberChar, rest.dropWhile isNumberChar)

/-- A number literal and what follows it. -/
def number? (cs : List Char) : Option (Value × List Char) :=
  (numberValue? (numberSpan cs).1).map fun v => (v, (numberSpan cs).2)

/-- What a path stands for that is not followed by a call: three names are literals. -/
def operandOfPath (segments : List String) : Operand :=
  if segments = ["true"] then .literal (.bool true)
  else if segments = ["false"] then .literal (.bool false)
  else if segments = ["null"] then .literal .null
  else .path segments

/-! ## Operands and calls -/

/-- Whether a text goes on with a call's parenthesis. -/
def opensCall : List Char → Bool
  | '(' :: _ => true
  | _ => false

/-- The path at the start of a text, and what follows the blanks after it. -/
def pathHere? (cs : List Char) : Option (List String × List Char) :=
  (path? (cs.takeWhile isPathChar)).map fun segments =>
    (segments, Text.trimLeft (cs.dropWhile isPathChar))

/-- A literal at the start of a text, and what follows it. -/
def literal? (cs : List Char) : Option (Value × List Char) :=
  match cs with
  | [] => none
  | c :: rest =>
    if c = '"' || c = '\'' then
      (quoted? c rest).map fun r => (.str (String.ofList r.1), r.2)
    else if c.isDigit || c = '-' then number? cs
    else none

/-- An argument at the start of a text, and what follows it. -/
def operand? (cs : List Char) : Option (Operand × List Char) :=
  match cs with
  | [] => none
  | c :: _ =>
    if isIdentStart c then
      match pathHere? cs with
      | none => none
      | some (segments, rest) =>
        if opensCall rest then none else some (operandOfPath segments, rest)
    else (literal? cs).map fun r => (.literal r.1, r.2)

theorem length_dropWhile_le (p : Char → Bool) (cs : List Char) :
    (cs.dropWhile p).length ≤ cs.length :=
  (List.dropWhile_sublist p).length_le

theorem length_trimLeft_le (cs : List Char) : (Text.trimLeft cs).length ≤ cs.length :=
  length_dropWhile_le _ cs

/-- What follows a string is shorter than the string. -/
theorem length_quoted?_lt {quote : Char} {cs body rest : List Char}
    (h : quoted? quote cs = some (body, rest)) : rest.length < cs.length := by
  fun_induction quoted? quote cs generalizing body rest with
  | case1 => simp at h
  | case2 => simp_all
  | case3 => simp at h
  | case4 =>
    rename_i ih
    obtain ⟨⟨b, t⟩, hb, he⟩ := Option.map_eq_some_iff.1 h
    have := ih hb
    simp only [Prod.mk.injEq] at he
    simp only [List.length_cons, ← he.2]
    omega
  | case5 =>
    rename_i ih
    obtain ⟨⟨b, t⟩, hb, he⟩ := Option.map_eq_some_iff.1 h
    have := ih hb
    simp only [Prod.mk.injEq] at he
    simp only [List.length_cons, ← he.2]
    omega

/-- What follows a number is no longer than the text. -/
theorem length_numberSpan_le (cs : List Char) : (numberSpan cs).2.length ≤ cs.length := by
  unfold numberSpan
  split
  · have := length_dropWhile_le isNumberChar
    grind
  · exact length_dropWhile_le _ _

/-- What follows an argument is no longer than the text. -/
theorem length_operand?_le {cs rest : List Char} {o : Operand}
    (h : operand? cs = some (o, rest)) : rest.length ≤ cs.length := by
  unfold operand? at h
  split at h
  · simp at h
  · rename_i c tail
    split at h
    · split at h
      · simp at h
      · rename_i segments after hpath
        split at h
        · simp at h
        · obtain ⟨p, _, hp⟩ := Option.map_eq_some_iff.1 hpath
          simp only [Option.some.injEq, Prod.mk.injEq] at h hp
          rw [← h.2, ← hp.2]
          exact Nat.le_trans (length_trimLeft_le _) (length_dropWhile_le _ _)
    · obtain ⟨⟨v, r⟩, hlit, he⟩ := Option.map_eq_some_iff.1 h
      simp only [Prod.mk.injEq] at he
      rw [← he.2]
      unfold literal? at hlit
      simp only at hlit
      split at hlit
      · obtain ⟨⟨b, t⟩, hb, hbe⟩ := Option.map_eq_some_iff.1 hlit
        simp only [Prod.mk.injEq] at hbe
        rw [← hbe.2]
        exact Nat.le_of_lt (Nat.lt_succ_of_lt (length_quoted?_lt hb))
      · split at hlit
        · obtain ⟨w, _, hw⟩ := Option.map_eq_some_iff.1 hlit
          simp only [Prod.mk.injEq] at hw
          rw [← hw.2]
          exact length_numberSpan_le _
        · simp at hlit

/-- The arguments of a call up to its closing parenthesis, at least one, and what follows it. -/
def operands? (cs : List Char) : Option (List Operand × List Char) :=
  match _h : operand? (Text.trimLeft cs) with
  | none => none
  | some (o, rest) =>
    match _hsep : Text.trimLeft rest with
    | ',' :: more => (operands? more).map fun r => (o :: r.1, r.2)
    | ')' :: more => some ([o], more)
    | _ => none
termination_by cs.length
decreasing_by
  have h1 := length_operand?_le _h
  have h2 := length_trimLeft_le cs
  have h3 := length_trimLeft_le rest
  rw [_hsep] at h3
  simp only [List.length_cons] at h3
  omega

/-- The arguments of a call after its opening parenthesis, and what follows the closing one. -/
def args? (cs : List Char) : Option (List Operand × List Char) :=
  match Text.trimLeft cs with
  | ')' :: more => some ([], more)
  | rest => operands? rest

/-- An expression at the start of a text, and what follows it. -/
def expr? (cs : List Char) : Option (Expr × List Char) :=
  match cs with
  | [] => none
  | c :: _ =>
    if isIdentStart c then
      match pathHere? cs with
      | none => none
      | some (segments, '(' :: rest) =>
        match segments with
        | [name] => (args? rest).map fun r => (.call name r.1, r.2)
        | _ => none
      | some (segments, rest) => some (.operand (operandOfPath segments), rest)
    else (literal? cs).map fun r => (.operand (.literal r.1), r.2)

/-- The expression written by a whole text, blanks around it aside. -/
def read? (cs : List Char) : Option Expr :=
  match expr? (Text.trimLeft cs) with
  | some (e, rest) => if (Text.trimLeft rest).isEmpty then some e else none
  | none => none

end Expr
end LiveMarkup
