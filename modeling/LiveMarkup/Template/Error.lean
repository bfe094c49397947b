/-!
# Template errors

Why a template text is refused, and where: the offset of the offending mark in bytes of the text's
UTF-8 form.

Main definitions:

- `BlockFault`: block tags that do not pair up.
- `TemplateError`: a fault or an unreadable placeholder, with its offset.
- `BlockFault.message`, `TemplateError.message`: the wording.
-/

namespace LiveMarkup

/-- Why a sequence of block tags is malformed. -/
inductive BlockFault where
  /-- A closing tag that names another block than the open one. -/
  | mismatched (opened closed : String)
  /-- A block without a closing tag. -/
  | unclosed (opened : String)
  /-- A closing tag without an open block. -/
  | strayClose (closed : String)
  /-- A block opened inside another. -/
  | nested (outer inner : String)
  /-- A block with a name that is not known. -/
  | unknownHelper (name : String)
  deriving DecidableEq, Repr

/-- Why a template text is refused. -/
inductive TemplateError where
  | malformedBlock (fault : BlockFault) (offset : Nat)
  | invalidExpression (source : String) (offset : Nat)
  deriving DecidableEq, Repr

namespace BlockFault

/-- The wording of a fault. -/
def message : BlockFault → String
  | .mismatched opened closed =>
    "block '" ++ opened ++ "' closed by '\x7b\x7b/" ++ closed ++ "\x7d\x7d'"
  | .unclosed opened => "block '" ++ opened ++ "' is never closed"
  | .strayClose closed => "closing tag '" ++ closed ++ "' has no opening tag"
  | .nested outer inner => "block '" ++ inner ++ "' nested inside block '" ++ outer ++ "'"
  | .unknownHelper name => "unknown block helper '" ++ name ++ "'"

end BlockFault

namespace TemplateError

/-- The wording of an error. -/
def message : TemplateError → String
  | .malformedBlock fault offset =>
    "malformed block at byte " ++ toString offset ++ ": " ++ fault.message
  | .invalidExpression source offset =>
    "invalid expression '#\x7b" ++ source ++ "\x7d' at byte " ++ toString offset

/-- The offset of the offending mark. -/
def offset : TemplateError → Nat
  | .malformedBlock _ offset => offset
  | .invalidExpression _ offset => offset

end TemplateError
end LiveMarkup
