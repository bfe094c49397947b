import LiveMarkup.Json.Record
import LiveMarkup.Template.Basic

/-!
# Template settings in JSON

Main definitions:

- `TemplateConfig.ofJson?`: the settings in a JSON record.
-/

namespace LiveMarkup

/-- The words for what malformed blocks do. -/
def MalformedBlocks.words : List (String × MalformedBlocks) :=
  [("error", .error), ("empty", .empty)]

/-- The template settings in a JSON record. -/
def TemplateConfig.ofJson? (j : Json) : Option TemplateConfig :=
  match j.record? ["malformed_blocks", "escape"] with
  | some [malformed, escape] => do
    let malformedBlocks ← Json.setting? (Json.choice? MalformedBlocks.words) (some .error) malformed
    let escape ← Json.setting? Json.flag? (some false) escape
    return { malformedBlocks, escape }
  | _ => none

end LiveMarkup
