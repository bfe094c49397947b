import LiveMarkup.Dom.Patcher
import LiveMarkup.Patch.Compiler

/-!
# Documents

A document is a live tree with the parser that fills it and the patch compiler that changes it.

Main definitions:

- `Document`: the tree, the parser and the compiler.
- `ConvergeError`: why a patch of a document fails.
- `Document.converge`: makes the children of an element match a source.
-/

namespace LiveMarkup

/-- A live tree that is patched through one compiler. -/
structure Document where
  dom : Dom := {}
  compiler : PatchCompiler

/-- Why a patch of a document fails. -/
inductive ConvergeError where
  | patch (e : PatchError)
  | dom (e : DomError)
  deriving DecidableEq, Repr

namespace Document

/-- An empty document. -/
def new (parser : MarkupParser) (config : PatchConfig := {}) : Document :=
  { compiler := PatchCompiler.new parser config }

/-- The parser of a document. -/
def parser (doc : Document) : MarkupParser :=
  doc.compiler.parser

/-- Whether a patch of a source is kept. -/
def hasCachedPatch (doc : Document) (source : String) : Bool :=
  doc.compiler.contains source

/-- Make the children of an element match a source. -/
def converge (doc : Document) (target : NodeId) (source : String) :
    Except ConvergeError Unit × Document :=
  match doc.compiler.createPatch source with
  | (.error e, compiler) => (.error (.patch e), { doc with compiler })
  | (.ok patch, compiler) =>
    match patch.apply doc.dom target with
    | (.ok (), dom) => (.ok (), { dom, compiler })
    | (.error e, dom) => (.error (.dom e), { dom, compiler })

end Document
end LiveMarkup
