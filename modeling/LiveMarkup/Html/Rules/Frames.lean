import LiveMarkup.Html.Rules.Body

/-!
# Rules for templates and frames

The content of a template is built in the mode that its first start tag calls for.

Main definitions:

- `Builder.inTemplate`, `Builder.inFrameset`: the rules of the modes.
-/

namespace LiveMarkup
namespace Html
namespace Builder

/-- Build the content of the innermost template in a mode. -/
def templateMode (b : Builder) (mode : Mode) : Step :=
  { b with templateModes := mode :: b.templateModes.drop 1 }.again mode

/-- The rules at the start of a template. -/
def inTemplate (b : Builder) : Token → Step
  | .char c => b.inBody (.char c)
  | .comment data => b.inBody (.comment data)
  | .startTag tag =>
    if metadataTags.contains tag.name then b.metadata tag
    else if ["caption", "colgroup", "tbody", "tfoot", "thead"].contains tag.name then
      b.templateMode .inTable
    else if tag.name = "col" then b.templateMode .inColumnGroup
    else if tag.name = "tr" then b.templateMode .inTableBody
    else if tag.name = "td" ∨ tag.name = "th" then b.templateMode .inRow
    else b.templateMode .inBody
  | .endTag name => if name = "template" then b.endTemplate.done else b.done
  | .eof => b.endInTemplate
  | _ => b.done

/-- The rules in a set of frames. -/
def inFrameset (b : Builder) : Token → Step
  | .char c => if isBlank c then (b.insertChar c).done else b.done
  | .comment data => (b.insertComment data).done
  | .startTag tag =>
    if tag.name = "frameset" then (b.enter tag).done
    else if tag.name = "frame" then (b.leaf tag).done
    else if tag.name = "noframes" then b.metadata tag
    else b.done
  | .endTag name => if name = "frameset" ∧ 1 < b.stack.length then b.pop.done else b.done
  | _ => b.done

end Builder
end Html
end LiveMarkup
