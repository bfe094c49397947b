import LiveMarkup.Html.Reference
import LiveMarkup.Html.Token

/-!
# Reading tokens

An automaton reads markup character by character.  Its state holds what it has read of an
unfinished token; a character changes the state and completes any number of tokens.  What kind of
content follows a start tag is not decided here: `Lexer.enter` tells the automaton.

Main definitions:

- `Html.Draft`: a tag that is being read.
- `Lexer.State`: the states.
- `Lexer.next`: the effect of a character on a state.
- `Lexer.State.rest`: the tokens that the end of the markup completes.
- `Html.Lexer`, `Lexer.feed`: the automaton with the memory of the last start tag.
- `Html.unifyNewlines`: markup with one kind of line ends.
-/

namespace LiveMarkup
namespace Html

/-! ## Tags being read -/

/-- A tag that is being read. -/
structure Draft where
  closing : Bool
  name : String
  /-- The attributes that are complete. -/
  attrs : List Attribute := []
  /-- The attribute that is being read. -/
  attr? : Option Attribute := none

namespace Draft

/-- Complete the attribute that is being read; only the first of a name counts. -/
def settle (d : Draft) : Draft :=
  match d.attr? with
  | none => d
  | some a =>
    { d with
      attr? := none
      attrs := if d.attrs.any fun b => b.name == a.name then d.attrs else d.attrs ++ [a] }

/-- Begin another attribute. -/
def beginAttr (d : Draft) (c : Char) : Draft :=
  { d.settle with attr? := some { name := String.singleton c, value := "" } }

/-- Add to the name of the attribute. -/
def pushAttrName (d : Draft) (c : Char) : Draft :=
  { d with attr? := d.attr?.map fun a => { a with name := a.name.push c } }

/-- Add to the value of the attribute. -/
def pushAttrValue (d : Draft) (c : Char) : Draft :=
  { d with attr? := d.attr?.map fun a => { a with value := a.value.push c } }

/-- The complete tag. -/
def token (d : Draft) (selfClosing : Bool) : Token :=
  if d.closing then .endTag d.name
  else .startTag { name := d.name, attrs := d.settle.attrs, selfClosing }

end Draft

namespace Lexer

/-! ## States -/

/-- How far the end of a comment has been read. -/
inductive CommentStage where
  | start
  | startDash
  | body
  | endDash
  | endDashes
  | endBang
  deriving DecidableEq, Repr

/-- Where a character reference stands. -/
inductive Place where
  | content (kind : Content)
  | value (tag : Draft) (quote? : Option Char)

/-- What has been read of an unfinished token. -/
inductive State where
  | content (kind : Content)
  | reference (place : Place) (read : List Char)
  | tagOpen
  | endTagOpen
  | tagName (tag : Draft)
  | beforeAttr (tag : Draft)
  | attrName (tag : Draft)
  | afterAttrName (tag : Draft)
  | beforeValue (tag : Draft)
  | value (tag : Draft) (quote? : Option Char)
  | afterValue (tag : Draft)
  | slash (tag : Draft)
  /-- After `<` in text. -/
  | less (kind : Content)
  /-- After `</` in text. -/
  | lessSlash (kind : Content)
  /-- After `</` and letters in text. -/
  | rawEndTag (kind : Content) (read : List Char)
  /-- After `<!` and so many dashes in a script. -/
  | escapeStart (dashes : Nat)
  /-- After `<` and letters inside a comment in a script. -/
  | doubleStart (read : List Char)
  /-- After `<` in a script tag inside a comment. -/
  | doubledLess
  /-- After `</` and letters in a script tag inside a comment. -/
  | doubleEnd (read : List Char)
  /-- After `<!`. -/
  | declaration (read : List Char)
  | doctype
  | bogus (data : String)
  | comment (stage : CommentStage) (data : String)

/-- A state with the tokens that were completed on the way to it. -/
abbrev Reading := State × List Token

/-- Tokens before those of a reading. -/
def after (tokens : List Token) (r : Reading) : Reading :=
  (r.1, tokens ++ r.2)

/-- The tokens of characters. -/
def chars (cs : List Char) : List Token :=
  cs.map .char

/-- A tag is complete. -/
def finish (d : Draft) (selfClosing : Bool) : Reading :=
  (.content .data, [d.token selfClosing])

/-- The character that stands for U+0000 where that is not allowed. -/
def visible (c : Char) : Char :=
  if c = '\x00' then '\ufffd' else c

/-- Whether a character ends the name of a tag. -/
def endsName (c : Char) : Bool :=
  isBlank c || c == '/' || c == '>'

/-! ## Content -/

/-- A character of content. -/
def contentNext (kind : Content) (c : Char) : Reading :=
  match kind with
  | .data =>
    if c = '&' then (.reference (.content .data) [], [])
    else if c = '<' then (.tagOpen, [])
    else if c = '\x00' then (.content .data, [.null])
    else (.content .data, [.char c])
  | .rcdata =>
    if c = '&' then (.reference (.content .rcdata) [], [])
    else if c = '<' then (.less .rcdata, [])
    else (.content .rcdata, [.char (visible c)])
  | .rawtext => if c = '<' then (.less .rawtext, []) else (.content .rawtext, [.char (visible c)])
  | .script => if c = '<' then (.less .script, []) else (.content .script, [.char (visible c)])
  | .escaped dashes =>
    if c = '-' then (.content (.escaped (dashes + 1)), [.char c])
    else if c = '<' then (.less (.escaped 0), [])
    else if c = '>' ∧ 2 ≤ dashes then (.content .script, [.char c])
    else (.content (.escaped 0), [.char (visible c)])
  | .doubled dashes =>
    if c = '-' then (.content (.doubled (dashes + 1)), [.char c])
    else if c = '<' then (.doubledLess, [.char c])
    else if c = '>' ∧ 2 ≤ dashes then (.content .script, [.char c])
    else (.content (.doubled 0), [.char (visible c)])
  | .plaintext => (.content .plaintext, [.char (visible c)])
  | .cdata brackets =>
    if c = ']' then
      if 2 ≤ brackets then (.content (.cdata brackets), [.char c])
      else (.content (.cdata (brackets + 1)), [])
    else if c = '>' ∧ 2 ≤ brackets then (.content .data, [])
    else
      (.content (.cdata 0),
        chars (List.replicate brackets ']') ++ [if c = '\x00' then .null else .char c])

/-- A character after `<` in text. -/
def lessNext (kind : Content) (c : Char) : Reading :=
  if c = '/' then (.lessSlash kind, [])
  else if c = '!' ∧ kind = .script then (.escapeStart 0, chars ['<', '!'])
  else if c.isAlpha ∧ kind = .escaped 0 then (.doubleStart [c.toLower], chars ['<', c])
  else after (chars ['<']) (contentNext kind c)

/-- A character after `</` and letters in text.  Only the end tag of the last start tag counts. -/
def rawEndTagNext (lastStart : Option String) (kind : Content) (read : List Char) (c : Char) :
    Reading :=
  let name := String.ofList (read.map Char.toLower)
  let tag : Draft := { closing := true, name }
  if lastStart = some name ∧ endsName c then
    if c = '>' then finish tag false
    else if c = '/' then (.slash tag, [])
    else (.beforeAttr tag, [])
  else if c.isAlpha then (.rawEndTag kind (read ++ [c]), [])
  else after (chars ('<' :: '/' :: read)) (contentNext kind c)

/-- A character after `<!` and dashes in a script. -/
def escapeStartNext (dashes : Nat) (c : Char) : Reading :=
  if c = '-' then
    (if dashes = 0 then .escapeStart 1 else .content (.escaped 2), [.char c])
  else contentNext .script c

/-- A character after letters that may name a script tag inside a comment: the text goes on as
`yes` if they do, and else as `no`. -/
def scriptNameNext (more : List Char → State) (yes no other : Content) (read : List Char)
    (c : Char) : Reading :=
  if endsName c then
    (.content (if read = ['s', 'c', 'r', 'i', 'p', 't'] then yes else no), [.char c])
  else if c.isAlpha then (more (read ++ [c.toLower]), [.char c])
  else contentNext other c

/-! ## Tags -/

/-- A character after `<`. -/
def tagOpenNext (c : Char) : Reading :=
  if c = '!' then (.declaration [], [])
  else if c = '/' then (.endTagOpen, [])
  else if c = '?' then (.bogus "?", [])
  else if c.isAlpha then
    (.tagName { closing := false, name := String.singleton c.toLower }, [])
  else after (chars ['<']) (contentNext .data c)

/-- A character after `</`. -/
def endTagOpenNext (c : Char) : Reading :=
  if c = '>' then (.content .data, [.nothing])
  else if c.isAlpha then
    (.tagName { closing := true, name := String.singleton c.toLower }, [])
  else (.bogus (String.singleton (visible c)), [])

/-- A character of the name of a tag. -/
def tagNameNext (d : Draft) (c : Char) : Reading :=
  if isBlank c then (.beforeAttr d, [])
  else if c = '/' then (.slash d, [])
  else if c = '>' then finish d false
  else (.tagName { d with name := d.name.push (visible c.toLower) }, [])

/-- A character where an attribute may begin. -/
def beforeAttrNext (d : Draft) (c : Char) : Reading :=
  if isBlank c then (.beforeAttr d, [])
  else if c = '/' then (.slash d, [])
  else if c = '>' then finish d false
  else (.attrName (d.beginAttr (visible c.toLower)), [])

/-- A character of the name of an attribute. -/
def attrNameNext (d : Draft) (c : Char) : Reading :=
  if isBlank c then (.afterAttrName d, [])
  else if c = '/' then (.slash d, [])
  else if c = '=' then (.beforeValue d, [])
  else if c = '>' then finish d false
  else (.attrName (d.pushAttrName (visible c.toLower)), [])

/-- A character after the name of an attribute and blanks. -/
def afterAttrNameNext (d : Draft) (c : Char) : Reading :=
  if isBlank c then (.afterAttrName d, [])
  else if c = '=' then (.beforeValue d, [])
  else beforeAttrNext d c

/-- A character of a value. -/
def valueNext (d : Draft) (quote? : Option Char) (c : Char) : Reading :=
  if quote? = some c then (.afterValue d, [])
  else if quote? = none ∧ isBlank c then (.beforeAttr d, [])
  else if quote? = none ∧ c = '>' then finish d false
  else if c = '&' then (.reference (.value d quote?) [], [])
  else (.value (d.pushAttrValue (visible c)) quote?, [])

/-- A character where a value may begin. -/
def beforeValueNext (d : Draft) (c : Char) : Reading :=
  if isBlank c then (.beforeValue d, [])
  else if c = '"' ∨ c = '\'' then (.value d (some c), [])
  else valueNext d none c

/-- A character after a value in quotes. -/
def afterValueNext (d : Draft) (c : Char) : Reading :=
  beforeAttrNext d c

/-- A character after a slash in a tag. -/
def slashNext (d : Draft) (c : Char) : Reading :=
  if c = '>' then finish d true else beforeAttrNext d c

/-! ## Declarations and comments -/

/-- A character of a comment that ends at the first `>`. -/
def bogusNext (data : String) (c : Char) : Reading :=
  if c = '>' then (.content .data, [.comment data])
  else (.bogus (data.push (visible c)), [])

/-- A character after `<!`.  A section of characters begins only in foreign content. -/
def declarationNext (foreign : Bool) (read : List Char) (c : Char) : Reading :=
  let read' := read ++ [c]
  let lower := read'.map Char.toLower
  let doctype := "doctype".toList
  let cdata := "[CDATA[".toList
  if read' = ['-', '-'] then (.comment .start "", [])
  else if lower = doctype then (.doctype, [])
  else if foreign ∧ read' = cdata then (.content (.cdata 0), [])
  else if read' = ['-'] ∨ lower.isPrefixOf doctype ∨ (foreign ∧ read'.isPrefixOf cdata) then
    (.declaration read', [])
  else bogusNext (String.ofList read) c

/-- A character of a comment. -/
def commentNext (stage : CommentStage) (data : String) (c : Char) : Reading :=
  let body (before : String) : Reading := (.comment .body ((data ++ before).push (visible c)), [])
  let done : Reading := (.content .data, [.comment data])
  match stage with
  | .start =>
    if c = '-' then (.comment .startDash data, []) else if c = '>' then done else body ""
  | .startDash =>
    if c = '-' then (.comment .endDashes data, []) else if c = '>' then done else body "-"
  | .body => if c = '-' then (.comment .endDash data, []) else body ""
  | .endDash => if c = '-' then (.comment .endDashes data, []) else body "-"
  | .endDashes =>
    if c = '>' then done
    else if c = '!' then (.comment .endBang data, [])
    else if c = '-' then (.comment .endDashes (data.push '-'), [])
    else body "--"
  | .endBang =>
    if c = '-' then (.comment .endDash (data ++ "--!"), [])
    else if c = '>' then done
    else body "--!"

/-! ## References -/

/-- Characters where a reference stood. -/
def Place.put (cs : List Char) : Place → Reading
  | .content kind => (.content kind, chars cs)
  | .value tag quote? => (.value (cs.foldl Draft.pushAttrValue tag) quote?, [])

/-- A character after characters where a reference stood. -/
def Place.putBefore (place : Place) (cs : List Char) (c : Char) : Reading :=
  match place with
  | .content kind => after (chars cs) (contentNext kind c)
  | .value tag quote? => valueNext (cs.foldl Draft.pushAttrValue tag) quote? c

/-- The text of a named reference, given what follows.  In a value an old name without its
semicolon before a letter, a digit or an equals sign is no reference. -/
def namedText (place : Place) (read following : List Char) : List Char :=
  match Reference.longest? read with
  | none => '&' :: read
  | some (name, cs, rest) =>
    let glued : Bool :=
      match rest ++ following with
      | [] => false
      | d :: _ => d.isAlphanum || d == '='
    match place with
    | .content _ => cs ++ rest
    | .value _ _ => if !name.toList.contains ';' && glued then '&' :: read else cs ++ rest

/-- A numbered reference without its semicolon: a mistake, but one that is read. -/
def flawed (place : Place) (r : Reading) : Reading :=
  match place with
  | .content _ => after [.nothing] r
  | .value _ _ => r

/-- A character after `&` and the characters that were read of a reference. -/
def referenceNext (place : Place) (read : List Char) (c : Char) : Reading :=
  match read with
  | [] =>
    if c.isAlphanum ∨ c = '#' then (.reference place [c], []) else place.putBefore ['&'] c
  | '#' :: written =>
    let base := (Reference.base written).1
    if written = [] ∧ (c = 'x' ∨ c = 'X') ∨ (Reference.digit? base c).isSome then
      (.reference place (read ++ [c]), [])
    else
      match Reference.number? written with
      | none => place.putBefore ('&' :: '#' :: written) c
      | some n =>
        if c = ';' then place.put [Reference.numbered n]
        else flawed place (place.putBefore [Reference.numbered n] c)
  | _ =>
    if Reference.startsName (read ++ [c]) then (.reference place (read ++ [c]), [])
    else place.putBefore (namedText place read [c]) c

/-! ## The automaton -/

/-- The effect of a character on a state; `foreign` says that the content is SVG or MathML. -/
def next (lastStart : Option String) (foreign : Bool) : State → Char → Reading
  | .content kind, c => contentNext kind c
  | .reference place read, c => referenceNext place read c
  | .tagOpen, c => tagOpenNext c
  | .endTagOpen, c => endTagOpenNext c
  | .tagName tag, c => tagNameNext tag c
  | .beforeAttr tag, c => beforeAttrNext tag c
  | .attrName tag, c => attrNameNext tag c
  | .afterAttrName tag, c => afterAttrNameNext tag c
  | .beforeValue tag, c => beforeValueNext tag c
  | .value tag quote?, c => valueNext tag quote? c
  | .afterValue tag, c => afterValueNext tag c
  | .slash tag, c => slashNext tag c
  | .less kind, c => lessNext kind c
  | .lessSlash kind, c =>
    if c.isAlpha then (.rawEndTag kind [c], []) else after (chars ['<', '/']) (contentNext kind c)
  | .rawEndTag kind read, c => rawEndTagNext lastStart kind read c
  | .escapeStart dashes, c => escapeStartNext dashes c
  | .doubleStart read, c =>
    scriptNameNext .doubleStart (.doubled 0) (.escaped 0) (.escaped 0) read c
  | .doubledLess, c =>
    if c = '/' then (.doubleEnd [], [.char c]) else contentNext (.doubled 0) c
  | .doubleEnd read, c =>
    scriptNameNext .doubleEnd (.escaped 0) (.doubled 0) (.doubled 0) read c
  | .declaration read, c => declarationNext foreign read c
  | .doctype, c => if c = '>' then (.content .data, [.nothing]) else (.doctype, [])
  | .bogus data, c => bogusNext data c
  | .comment stage data, c => commentNext stage data c

/-- The tokens that the end of the markup completes.  An unfinished tag is dropped, an unfinished
comment is not. -/
def State.rest : State → List Token
  | .content (.cdata brackets) => chars (List.replicate brackets ']')
  | .reference (.content _) [] => chars ['&']
  | .reference (.content _) ('#' :: written) =>
    match Reference.number? written with
    | none => chars ('&' :: '#' :: written)
    | some n => [.nothing, .char (Reference.numbered n)]
  | .reference (.content kind) read => chars (namedText (.content kind) read [])
  | .tagOpen => chars ['<']
  | .endTagOpen => chars ['<', '/']
  | .less _ => chars ['<']
  | .lessSlash _ => chars ['<', '/']
  | .rawEndTag _ read => chars ('<' :: '/' :: read)
  | .declaration read => [.comment (String.ofList read)]
  | .bogus data => [.comment data]
  | .comment _ data => [.comment data]
  | _ => []

end Lexer

/-- The automaton with the name of the last start tag that it read. -/
structure Lexer where
  state : Lexer.State := .content .data
  lastStart : Option String := none

namespace Lexer

/-- The name in the last start tag among tokens. -/
def lastStartAmong (before : Option String) (tokens : List Token) : Option String :=
  tokens.foldl (fun name t => match t with
    | .startTag tag => some tag.name
    | _ => name) before

/-- Read a character; `foreign` says that the content is SVG or MathML. -/
def feed (lexer : Lexer) (foreign : Bool) (c : Char) : Lexer × List Token :=
  let (state, tokens) := next lexer.lastStart foreign lexer.state c
  ({ state, lastStart := lastStartAmong lexer.lastStart tokens }, tokens)

/-- Go on with a kind of content. -/
def enter (lexer : Lexer) (kind : Content) : Lexer :=
  { lexer with state := .content kind }

end Lexer

/-- Markup with a line feed for each line end, however that was written. -/
def unifyNewlines : List Char → List Char
  | [] => []
  | '\r' :: '\n' :: rest => '\n' :: unifyNewlines rest
  | '\r' :: rest => '\n' :: unifyNewlines rest
  | c :: rest => c :: unifyNewlines rest

end Html
end LiveMarkup
