import LiveMarkup.Html.Element
import LiveMarkup.Html.ParsedTree
import LiveMarkup.Html.Token

/-!
# Foreign content

SVG and MathML stand in HTML with names that HTML has put in lower case.  Where their names have
capitals, these are restored.

Main definitions:

- `Foreign.svgName`, `Foreign.svgAttribute`, `Foreign.mathmlAttribute`: names with their capitals.
- `Foreign.qualified`, `Foreign.adjust`: the attributes of an element, with their prefixes.
- `Foreign.breaksOut`: the start tags that end foreign content.
- `Foreign.isAnnotation`: the annotations that hold HTML.
-/

namespace LiveMarkup
namespace Html
namespace Foreign

/-- The SVG elements with capitals in their names. -/
def svgNames : List String :=
  ["altGlyph", "altGlyphDef", "altGlyphItem", "animateColor", "animateMotion", "animateTransform",
    "clipPath", "feBlend", "feColorMatrix", "feComponentTransfer", "feComposite",
    "feConvolveMatrix", "feDiffuseLighting", "feDisplacementMap", "feDistantLight",
    "feDropShadow", "feFlood", "feFuncA", "feFuncB", "feFuncG", "feFuncR", "feGaussianBlur",
    "feImage", "feMerge", "feMergeNode", "feMorphology", "feOffset", "fePointLight",
    "feSpecularLighting", "feSpotLight", "feTile", "feTurbulence", "foreignObject", "glyphRef",
    "linearGradient", "radialGradient", "textPath"]

/-- The SVG attributes with capitals in their names. -/
def svgAttributes : List String :=
  ["attributeName", "attributeType", "baseFrequency", "baseProfile", "calcMode", "clipPathUnits",
    "diffuseConstant", "edgeMode", "filterUnits", "glyphRef", "gradientTransform",
    "gradientUnits", "kernelMatrix", "kernelUnitLength", "keyPoints", "keySplines", "keyTimes",
    "lengthAdjust", "limitingConeAngle", "markerHeight", "markerUnits", "markerWidth",
    "maskContentUnits", "maskUnits", "numOctaves", "pathLength", "patternContentUnits",
    "patternTransform", "patternUnits", "pointsAtX", "pointsAtY", "pointsAtZ", "preserveAlpha",
    "preserveAspectRatio", "primitiveUnits", "refX", "refY", "repeatCount", "repeatDur",
    "requiredExtensions", "requiredFeatures", "specularConstant", "specularExponent",
    "spreadMethod", "startOffset", "stdDeviation", "stitchTiles", "surfaceScale",
    "systemLanguage", "tableValues", "targetX", "targetY", "textLength", "viewBox", "viewTarget",
    "xChannelSelector", "yChannelSelector", "zoomAndPan"]

/-- A text in lower case. -/
def lower (s : String) : String :=
  String.ofList (s.toList.map Char.toLower)

/-- The spelling among several that differs from a name in case only, or else the name itself. -/
def spelled (spellings : List String) (name : String) : String :=
  (spellings.find? fun s => lower s == name).getD name

/-- The name of an SVG element. -/
def svgName (name : String) : String :=
  spelled svgNames name

/-- The name of an SVG attribute. -/
def svgAttribute (name : String) : String :=
  spelled svgAttributes name

/-- The name of a MathML attribute. -/
def mathmlAttribute (name : String) : String :=
  spelled ["definitionURL"] name

/-- The attributes that are read with a prefix. -/
def prefixed : List (String × String) :=
  [("xlink", "actuate"), ("xlink", "arcrole"), ("xlink", "href"), ("xlink", "role"),
    ("xlink", "show"), ("xlink", "title"), ("xlink", "type"), ("xml", "lang"), ("xml", "space"),
    ("xmlns", "xlink")]

/-- The name of a foreign attribute.  The prefix of a namespace declaration that names no prefix is
empty. -/
def qualified (name : String) : QualifiedName :=
  if name = "xmlns" then { spacePrefix? := some "", base := name }
  else
    match prefixed.find? fun entry => entry.1 ++ ":" ++ entry.2 == name with
    | some (spacePrefix, base) => { spacePrefix? := some spacePrefix, base }
    | none => { base := name }

/-- The attributes of an element in a namespace. -/
def adjust (space : Namespace) (attrs : List Attribute) : List QualifiedAttribute :=
  attrs.map fun a =>
    match space with
    | .html => { name := { base := a.name }, value := a.value }
    | .svg => { name := qualified (svgAttribute a.name), value := a.value }
    | .mathml => { name := qualified (mathmlAttribute a.name), value := a.value }

/-- The start tags that end foreign content. -/
def htmlOnly : List String :=
  ["b", "big", "blockquote", "body", "br", "center", "code", "dd", "div", "dl", "dt", "em",
    "embed", "h1", "h2", "h3", "h4", "h5", "h6", "head", "hr", "i", "img", "li", "listing",
    "menu", "meta", "nobr", "ol", "p", "pre", "ruby", "s", "small", "span", "strong", "strike",
    "sub", "sup", "table", "tt", "u", "ul", "var"]

/-- Whether a start tag ends foreign content. -/
def breaksOut (tag : StartTag) : Bool :=
  htmlOnly.contains tag.name ||
    (tag.name == "font" &&
      tag.attrs.any fun a => ["color", "face", "size"].contains a.name)

/-- Whether an element is an annotation whose encoding is HTML. -/
def isAnnotation (space : Namespace) (name : String) (attrs : List Attribute) : Bool :=
  space == .mathml && name == "annotation-xml" &&
    attrs.any fun a =>
      a.name == "encoding" &&
        ["text/html", "application/xhtml+xml"].contains (lower a.value)

end Foreign
end Html
end LiveMarkup
