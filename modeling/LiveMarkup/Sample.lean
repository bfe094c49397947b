import LiveMarkup.Template.Basic

/-!
# Sample templates and helpers

A list and a list of keyed cards, with the scopes that fill them, and three helpers.

Main definitions:

- `Sample.listTemplate`, `Sample.listScope`: a list of titles.
- `Sample.cardTemplate`, `Sample.cardScope`: cards, each with an authored id.
- `Sample.helpers`, `Sample.run`: the helpers `upper`, `join` and `greet`, and what they return.
-/

namespace LiveMarkup
namespace Sample

/-- A list of titles. -/
def listTemplate : String :=
  "<ul>\x7b\x7beach items\x7d\x7d<li>#\x7btitle\x7d</li>\x7b\x7b/each\x7d\x7d</ul>"

/-- A list of cards, each with an authored id. -/
def cardTemplate : String :=
  "<section class=\"cards\">\x7b\x7beach cards\x7d\x7d<article id=\"card-#\x7bid\x7d\">" ++
    "<h2>#\x7btitle\x7d</h2><p>#\x7bbody\x7d</p></article>\x7b\x7b/each\x7d\x7d</section>"

/-- The scope of a list of titles. -/
def listScope (titles : List String) : Scope :=
  [("items", .list (titles.map fun title => .map [("title", .str title)]))]

/-- The scope of cards, each a number, a title and a body. -/
def cardScope (cards : List (Nat × String × String)) : Scope :=
  [("cards", .list (cards.map fun (id, title, body) =>
    .map [("id", .int id), ("title", .str title), ("body", .str body)]))]

/-- The helper that returns the text of its first argument in capitals. -/
def upper : Helper := ⟨0⟩

/-- The helper that returns the texts of its arguments with spaces between them. -/
def join : Helper := ⟨1⟩

/-- The helper that returns a greeting. -/
def greet : Helper := ⟨2⟩

/-- The three sample helpers under their names. -/
def helpers : Registry :=
  ⟨[("upper", upper), ("join", join), ("greet", greet)]⟩

/-- What the sample helpers return; any other helper returns null. -/
def run : Behaviour := fun h args =>
  if h = upper then .str (String.map Char.toUpper ((args.head?.map Value.text).getD ""))
  else if h = join then .str (String.intercalate " " (args.map Value.text))
  else if h = greet then .str "hi"
  else .null

end Sample
end LiveMarkup
