import LiveMarkup.Template.Basic
import LiveMarkup.Text.Quoted

/-!
# Descriptions

One-line descriptions of templates and registries for diagnostics.

Main definitions:

- `Registry.description`: the names of a registry.
- `Template.description`: the source and the settings of a template.
-/

namespace LiveMarkup

/-- Texts with commas between them. -/
def commaSeparated (texts : List String) : String :=
  String.intercalate ", " texts

/-- The names of a registry. -/
def Registry.description (r : Registry) : String :=
  "HelperRegistry \x7b names: [" ++
    commaSeparated (r.names.map Text.Quoted.diagnostic) ++ "] \x7d"

/-- A source: its text, or a mark for a function. -/
def TemplateSource.description : TemplateSource → String
  | .text s => "Text(" ++ Text.Quoted.diagnostic s ++ ")"
  | .function _ => "Render(..)"

/-- The settings of compilation. -/
def TemplateConfig.description (config : TemplateConfig) : String :=
  "TemplateConfig \x7b malformed_blocks: " ++
    (match config.malformedBlocks with
      | .error => "Error"
      | .empty => "Empty") ++
    ", escape: " ++ (if config.escape then "true" else "false") ++ " \x7d"

/-- The source and the settings of a template. -/
def Template.description (t : Template) : String :=
  "Template \x7b source: " ++ t.source.description ++ ", config: " ++ t.config.description ++
    ", .. \x7d"

end LiveMarkup
