/-!
# Parsed trees

Markup that is read as the content of an element becomes a tree of documents, elements, texts and
the like.  Names in it may have a prefix.  An element may hold contents apart from its children, as
a template does: they stand below a document of their own.  At the top there is a document as well,
and the nodes right below it only wrap what the markup stands for.

How such a tree is built is left open here: `Html.TreeBuilder` is the type of the algorithms.

Main definitions:

- `Html.QualifiedName`, `Html.QualifiedAttribute`: names that may have a prefix.
- `Html.NodeData`, `Html.ParsedNode`: what nodes are, and the nodes.
- `Html.TreeBuilder`: algorithms that build such trees.
-/

namespace LiveMarkup
namespace Html

/-- A name; a prefix stands for its namespace. -/
structure QualifiedName where
  spacePrefix? : Option String := none
  base : String
  deriving DecidableEq, Repr

/-- An attribute whose name may have a prefix. -/
structure QualifiedAttribute where
  name : QualifiedName
  value : String
  deriving DecidableEq, Repr

/-- What a node is, where contents that are held apart from the children are given by `α`. -/
inductive NodeData (α : Type) where
  | document
  | doctype (name : String)
  | text (contents : String)
  | comment (contents : String)
  | element (name : QualifiedName) (attrs : List QualifiedAttribute) (contents? : Option α)
  | instruction (target contents : String)

/-- A node of a parsed tree with everything below it. -/
inductive ParsedNode where
  | node (data : NodeData ParsedNode) (children : List ParsedNode)

/-- The children of a node; contents that an element holds apart are not among them. -/
def ParsedNode.children : ParsedNode → List ParsedNode
  | .node _ children => children

/-- An algorithm that reads markup as the content of an element with a name, and puts the tree
below a document. -/
abbrev TreeBuilder := String → String → ParsedNode

end Html
end LiveMarkup
