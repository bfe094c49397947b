import LiveMarkup.Markup.ParseError
import LiveMarkup.Patch.Config
import LiveMarkup.Patch.Instruction
import LiveMarkup.Patch.Key

/-!
# Compiling fragments

The instructions of a fragment follow its nodes in document order: an element is opened, its
content placed and the element closed again.  Texts at the top and empty texts are skipped.
Comments and directives have no form as an instruction, so the first of them stops compilation.

Compilation first drafts the instructions, in which an element that needs a generated key has none
yet, and then draws keys from a supply in document order.

Main definitions:

- `PatchError`: why a source has no patch.
- `Place`: where a node stands.
- `Draft`, `Draft.ofNodes`: instructions without generated keys.
- `Draft.assign`: draws the missing keys.
- `Fragment.compile`: the instructions of a fragment.
-/

namespace LiveMarkup

/-- Why a source has no patch. -/
inductive PatchError where
  | unhandledNodeKind (kind : NodeKind) (path : String)
  | parse (e : ParseError)
  deriving DecidableEq, Repr

/-- The wording of an error. -/
def PatchError.message : PatchError → String
  | .unhandledNodeKind kind path => "unhandled node kind '" ++ kind.name ++ "' at " ++ path
  | .parse e => "parse error: " ++ e.message

/-- Where the children of a node stand: the key of the nearest element with an authored id, and the
positions from there down to the node. -/
structure Place where
  anchor : String := ""
  path : List Nat := []
  deriving DecidableEq, Repr

namespace Place

/-- The key of the child at a position. -/
def key (place : Place) (position : Nat) : String :=
  Key.structural place.anchor (place.path ++ [position])

/-- The place of the children of the child at a position, which may have an authored key. -/
def child (place : Place) (position : Nat) : Option String → Place
  | some key => { anchor := key, path := [] }
  | none => { place with path := place.path ++ [position] }

end Place

/-- The key of an element by its attributes, if it has an id that is not empty. -/
def Key.authored? (attrs : List Attribute) : Option String :=
  match Attribute.find? attrs "id" with
  | some id => if id = "" then none else some (Key.authored id)
  | none => none

/-- An instruction in which an element may still lack its key. -/
inductive Draft where
  | openElement (tag : String) (key : Option String) (attrs : List Attribute)
  | closeElement (tag : String)
  | text (content : String)
  deriving DecidableEq, Repr

namespace Draft

/-- The attributes that an instruction keeps. -/
def keptAttributes (config : PatchConfig) (attrs : List Attribute) : List Attribute :=
  if config.dropEmptyAttributes then attrs.filter fun a => a.value != "" else attrs

/-- The key of an element that is known without drawing one. -/
def knownKey (config : PatchConfig) (place : Place) (position : Nat)
    (authored : Option String) : Option String :=
  match authored, config.identity with
  | some key, _ => some key
  | none, .structural => some (place.key position)
  | none, .generated => none

mutual

/-- The draft of a node at a position among the elements at its place. -/
def ofNode (config : PatchConfig) (place : Place) (position : Nat) (top : Bool) :
    Node → Except PatchError (List Draft)
  | .element tag attrs children =>
    let authored := Key.authored? attrs
    match ofNodes config (place.child position authored) 0 false children with
    | .ok inner =>
      .ok (.openElement tag (knownKey config place position authored)
        (keptAttributes config attrs) :: (inner ++ [.closeElement tag]))
    | .error e => .error e
  | .text data => .ok (if top || data = "" then [] else [.text data])
  | .comment _ => .error (.unhandledNodeKind .comment (place.key position))
  | .directive _ => .error (.unhandledNodeKind .directive (place.key position))

/-- The draft of nodes at one place, the first at a position among the elements there. -/
def ofNodes (config : PatchConfig) (place : Place) (position : Nat) (top : Bool) :
    List Node → Except PatchError (List Draft)
  | [] => .ok []
  | n :: rest =>
    match ofNode config place position top n with
    | .ok first =>
      match ofNodes config place (if n.kind = .tag then position + 1 else position) top rest with
      | .ok others => .ok (first ++ others)
      | .error e => .error e
    | .error e => .error e

end

/-- Draw the missing keys from a supply, the first of them with a number. -/
def assign (supply : Nat → String) : Nat → List Draft → List Instruction
  | _, [] => []
  | n, .openElement tag (some key) attrs :: rest =>
    .openElement tag key attrs :: assign supply n rest
  | n, .openElement tag none attrs :: rest =>
    .openElement tag (supply n) attrs :: assign supply (n + 1) rest
  | n, .closeElement tag :: rest => .closeElement tag :: assign supply n rest
  | n, .text content :: rest => .text content :: assign supply n rest

/-- Whether an instruction lacks its key. -/
def lacksKey : Draft → Bool
  | .openElement _ none _ => true
  | _ => false

end Draft

/-- The draft of a fragment. -/
def Fragment.draft (config : PatchConfig) (f : Fragment) : Except PatchError (List Draft) :=
  Draft.ofNodes config {} 0 true (f.forest Fragment.root)

/-- The instructions of a fragment, with keys drawn from a supply. -/
def Fragment.compile (config : PatchConfig) (supply : Nat → String) (f : Fragment) :
    Except PatchError (List Instruction) :=
  (f.draft config).map (Draft.assign supply 0)

end LiveMarkup
