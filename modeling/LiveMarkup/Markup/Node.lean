/-!
# Markup trees

A piece of markup is a list of nodes: elements with attributes and children, texts, comments and
directives.

Main definitions:

- `Attribute`: a name with a value, which is empty for a bare name.
- `NodeKind`: the kinds of nodes, and the root above them.
- `Node`: a node with everything below it.
- `Node.size`: how many nodes a node and everything below it are.
-/

namespace LiveMarkup

/-- A name with a value; the value of a bare name is empty. -/
structure Attribute where
  name : String
  value : String
  deriving DecidableEq, Repr

/-- The value of the first attribute with a name. -/
def Attribute.find? (attrs : List Attribute) (name : String) : Option String :=
  (attrs.find? fun a => a.name == name).map (·.value)

/-- What a node is; the root stands above the nodes at the top. -/
inductive NodeKind where
  | root
  | tag
  | text
  | comment
  | directive
  deriving DecidableEq, Repr

/-- The name of a kind in messages. -/
def NodeKind.name : NodeKind → String
  | .root => "root"
  | .tag => "tag"
  | .text => "text"
  | .comment => "comment"
  | .directive => "directive"

/-- A node with everything below it. -/
inductive Node where
  | element (tag : String) (attrs : List Attribute) (children : List Node)
  | text (data : String)
  | comment (data : String)
  | directive (data : String)
  deriving Inhabited

namespace Node

/-- What a node is. -/
def kind : Node → NodeKind
  | .element _ _ _ => .tag
  | .text _ => .text
  | .comment _ => .comment
  | .directive _ => .directive

mutual

/-- The number of nodes that a node and everything below it are. -/
def size : Node → Nat
  | .element _ _ children => sizeAll children + 1
  | .text _ => 1
  | .comment _ => 1
  | .directive _ => 1

/-- The number of nodes that several nodes and everything below them are. -/
def sizeAll : List Node → Nat
  | [] => 0
  | n :: rest => size n + sizeAll rest

end

end Node
end LiveMarkup
