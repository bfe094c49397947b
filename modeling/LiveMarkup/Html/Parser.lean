import LiveMarkup.Html.Copy
import LiveMarkup.Html.Lexer
import LiveMarkup.Html.Rules.Dispatch

/-!
# The HTML parser

Markup is read as the content of an element.  The lexer turns characters into tokens, and the
builder turns tokens into a tree; in return the builder tells the lexer what kind of content follows
a start tag.  A byte order mark is dropped where reading begins: at the start of the markup, and
again after each script.  The finished tree is copied into a fragment.

Main definitions:

- `Html.Reader`: the lexer and the builder.
- `Html.document`: the tree that markup stands for.
- `HtmlConfig.parser`: the parser.
-/

namespace LiveMarkup
namespace Html

/-- The lexer and the builder. -/
structure Reader where
  lexer : Lexer
  builder : Builder
  /-- Whether reading begins here. -/
  begins : Bool := true

namespace Reader

/-- The kind of content that an element of a name holds. -/
def contentOf (name : String) : Content :=
  if name = "title" ∨ name = "textarea" then .rcdata
  else if ["style", "xmp", "iframe", "noembed", "noframes", "noscript"].contains name then .rawtext
  else if name = "script" then .script
  else if name = "plaintext" then .plaintext
  else .data

/-- The state before the content of an element of a name. -/
def new (context : String) : Reader :=
  { lexer := { state := .content (contentOf context) }, builder := .new context }

/-- Take a token. -/
def take (r : Reader) (t : Token) : Reader :=
  let begins := r.builder.endsScript t
  match r.builder.take t with
  | (builder, none) => { lexer := r.lexer, builder, begins }
  | (builder, some kind) => { lexer := r.lexer.enter kind, builder, begins }

/-- Read a character. -/
def feed (r : Reader) (c : Char) : Reader :=
  if r.begins && c == '\ufeff' then { r with begins := false }
  else
    let (lexer, tokens) := r.lexer.feed r.builder.foreign?.isSome c
    tokens.foldl take { lexer, builder := r.builder, begins := false }

/-- Read the end of the markup. -/
def finish (r : Reader) : Reader :=
  (r.lexer.state.rest.foldl take r).take .eof

end Reader

/-- The tree that markup stands for as the content of an element. -/
def document : TreeBuilder := fun context markup =>
  ((unifyNewlines markup.toList).foldl Reader.feed (.new context)).finish.builder.tree.document

end Html

/-- The parser with settings. -/
def HtmlConfig.parser (config : HtmlConfig) : MarkupParser :=
  config.parserOver Html.document

end LiveMarkup
