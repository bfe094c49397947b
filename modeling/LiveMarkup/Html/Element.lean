/-!
# Open elements

The elements that are open at a point of the markup, innermost first, and the classes of elements
that decide what a tag closes.

Main definitions:

- `Html.Namespace`, `Html.Element`: elements by name.
- `Html.Element.among`: classes of HTML elements, and the classes in use.
- `Html.inScope`: whether an open element can be closed from inside.
- `Html.closeThrough`, `Html.closeTo`, `Html.closeImplied`: what stays open after closing.
-/

namespace LiveMarkup
namespace Html

/-- The languages of elements. -/
inductive Namespace where
  | html
  | svg
  | mathml
  deriving DecidableEq, Repr

/-- An element of the tree that is being built. -/
structure Element where
  /-- Its place in the tree. -/
  id : Nat
  space : Namespace
  name : String
  /-- Whether it is an annotation that holds HTML. -/
  annotation : Bool := false
  deriving DecidableEq, Repr

namespace Element

/-- Whether it is the HTML element of a name. -/
def named (e : Element) (name : String) : Bool :=
  e.space == .html && e.name == name

/-- Whether it is an HTML element with one of several names. -/
def among (e : Element) (names : List String) : Bool :=
  e.space == .html && names.contains e.name

/-- Whether it is the given element. -/
def same (e other : Element) : Bool :=
  e.id == other.id

/-! ## Classes -/

/-- MathML elements that hold text. -/
def holdsText (e : Element) : Bool :=
  e.space == .mathml && ["mi", "mo", "mn", "ms", "mtext"].contains e.name

/-- SVG elements that hold HTML. -/
def holdsHtml (e : Element) : Bool :=
  e.space == .svg && ["foreignObject", "desc", "title"].contains e.name

/-- Elements that end the search for an element to close. -/
def bounds (e : Element) : Bool :=
  e.among ["applet", "caption", "html", "table", "td", "th", "marquee", "object", "template"] ||
    e.holdsText || e.holdsHtml

/-- Elements that end the search for a list item. -/
def boundsItem (e : Element) : Bool :=
  e.bounds || e.among ["ol", "ul"]

/-- Elements that end the search for a paragraph. -/
def boundsParagraph (e : Element) : Bool :=
  e.bounds || e.named "button"

/-- Elements that end the search for a part of a table. -/
def boundsTable (e : Element) : Bool :=
  e.among ["html", "table", "template"]

/-- Elements that end the search for a selection: all but options and their groups. -/
def boundsSelect (e : Element) : Bool :=
  !e.among ["optgroup", "option"]

/-- Elements whose end tag may be left out. -/
def impliedEnds : List String :=
  ["dd", "dt", "li", "option", "optgroup", "p", "rb", "rp", "rt", "rtc"]

/-- Elements that the end of a template closes. -/
def thoroughEnds : List String :=
  impliedEnds ++ ["caption", "colgroup", "tbody", "td", "tfoot", "th", "thead", "tr"]

/-- The headings. -/
def headings : List String :=
  ["h1", "h2", "h3", "h4", "h5", "h6"]

/-- The parts of a table in which text is out of place. -/
def tableParts : List String :=
  ["table", "tbody", "tfoot", "thead", "tr"]

/-- Elements with rules of their own, which formatting does not cross. -/
def specials : List String :=
  ["address", "applet", "area", "article", "aside", "base", "basefont", "bgsound", "blockquote",
    "body", "br", "button", "caption", "center", "col", "colgroup", "dd", "details", "dir", "div",
    "dl", "dt", "embed", "fieldset", "figcaption", "figure", "footer", "form", "frame",
    "frameset", "h1", "h2", "h3", "h4", "h5", "h6", "head", "header", "hgroup", "hr", "html",
    "iframe", "img", "input", "isindex", "li", "link", "listing", "main", "marquee", "menu",
    "meta", "nav", "noembed", "noframes", "noscript", "object", "ol", "p", "param", "plaintext",
    "pre", "script", "section", "select", "source", "style", "summary", "table", "tbody", "td",
    "template", "textarea", "tfoot", "th", "thead", "title", "tr", "track", "ul", "wbr", "xmp"]

/-- Whether it is an element with rules of its own. -/
def isSpecial (e : Element) : Bool :=
  e.among specials

end Element

/-! ## Open elements -/

/-- Whether a target is open with no bound inside it. -/
def inScope (bound target : Element → Bool) : List Element → Bool
  | [] => false
  | e :: rest => target e || (!bound e && inScope bound target rest)

/-- What stays open after closing everything up to a target, and the target. -/
def closeThrough (target : Element → Bool) (stack : List Element) : List Element :=
  (stack.dropWhile fun e => !target e).drop 1

/-- What stays open after closing everything inside a target. -/
def closeTo (target : Element → Bool) (stack : List Element) : List Element :=
  stack.dropWhile fun e => !target e

/-- What stays open after closing elements whose end tag may be left out. -/
def closeImplied (names : List String) (stack : List Element) : List Element :=
  stack.dropWhile fun e => e.among names

/-- The open elements without one of them. -/
def closeOnly (e : Element) (stack : List Element) : List Element :=
  stack.eraseP fun o => o.same e

end Html
end LiveMarkup
