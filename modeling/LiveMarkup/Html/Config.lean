import LiveMarkup.Json.Record
import LiveMarkup.Text.Blank

/-!
# Settings of the HTML parser

Main definitions:

- `HtmlConfig`: the nesting limit, and the element whose content is parsed.
- `HtmlConfig.sanitized`: settings that the parser can use.
- `HtmlConfig.ofJson?`: the settings in a JSON record.
-/

namespace LiveMarkup

/-- The settings of the HTML parser. -/
structure HtmlConfig where
  /-- How deep elements may be nested. -/
  maxDepth : Nat := 512
  /-- The name of the element whose content is parsed. -/
  context : String := "body"
  deriving DecidableEq, Repr

namespace HtmlConfig

/-- Settings with a limit above zero and a context in lower case without blanks around it; a limit
of zero and a blank context stand for the defaults. -/
def sanitized (config : HtmlConfig) : HtmlConfig :=
  let name := (Text.trim config.context.toList).map Char.toLower
  { maxDepth := if config.maxDepth = 0 then 512 else config.maxDepth
    context := if name.isEmpty then "body" else String.ofList name }

/-- The parser settings in a JSON record. -/
def ofJson? (j : Json) : Option HtmlConfig :=
  match j.record? ["max_depth", "context"] with
  | some [depth, context] => do
    let maxDepth ← Json.setting? Json.size? (some 512) depth
    let context ← Json.setting? Json.text? (some "body") context
    return { maxDepth, context }
  | _ => none

end HtmlConfig
end LiveMarkup
