import LiveMarkup.Value.Basic

/-!
# The helper registry

Helpers are registered under identifiers, each name once; the last registration wins and a refused
one changes nothing.

Main definitions:

- `Registry`: the registered helpers.
- `Registry.insert`, `Registry.get?`, `Registry.remove`: its operations.
- `Registry.request`: one entry point to look up and to register, with arguments of any kind.
-/

namespace LiveMarkup

/-- The registered helpers. -/
structure Registry where
  entries : Entries Helper := []

/-- Why a registration or a look-up is refused. -/
inductive RegistryError where
  | nameNotIdentifier (name : String)
  | noArguments
  | definitionNotFunction
  | nameNotString
  | nameOfType (typeName : String)
  deriving DecidableEq, Repr

namespace RegistryError

/-- The wording of an error. -/
def message (e : RegistryError) : String :=
  "invalid argument: " ++ match e with
    | .nameNotIdentifier name => "helper name '" ++ name ++ "' is not an identifier"
    | .noArguments => "expecting at least 1 argument"
    | .definitionNotFunction => "expecting definition to be a function"
    | .nameNotString => "expecting name to be a string"
    | .nameOfType typeName => "expecting name to be a string, got " ++ typeName

end RegistryError

namespace Registry

/-- Whether a name can be registered: a letter, an underscore or a dollar sign, then those and
digits. -/
def isIdentifier (name : String) : Bool :=
  match name.toList with
  | [] => false
  | c :: rest =>
    (c.isAlpha || c == '_' || c == '$') && rest.all fun c => c.isAlphanum || c == '_' || c == '$'

/-- The helper registered under a name. -/
def get? (r : Registry) (name : String) : Option Helper :=
  r.entries.lookup name

/-- Whether a name is registered. -/
def contains (r : Registry) (name : String) : Bool :=
  (r.get? name).isSome

/-- Register a helper, in the place of one with the same name. -/
def insert (r : Registry) (name : String) (h : Helper) : Except RegistryError Registry :=
  if isIdentifier name then .ok ⟨Entries.insert name h r.entries⟩
  else .error (.nameNotIdentifier name)

/-- Forget a name. -/
def remove (r : Registry) (name : String) : Registry :=
  ⟨r.entries.filter fun entry => entry.1 != name⟩

/-- The registered names in ascending order. -/
def names (r : Registry) : List String :=
  (Entries.keys r.entries).mergeSort fun a b => decide (a ≤ b)

/-- The number of registered names. -/
def size (r : Registry) : Nat :=
  r.entries.length

/-- The answer to a request: the registry with a definition stored, or what was found. -/
inductive Reply where
  | stored (r : Registry)
  | found (h : Option Helper)

/-- Store a definition under a name, or without a definition look the name up. -/
def request (r : Registry) (name : Value) (definition : Option Value) :
    Except RegistryError Reply :=
  match name, definition with
  | .null, none => .error .noArguments
  | name, some definition =>
    match definition.helper? with
    | none => .error .definitionNotFunction
    | some h =>
      match name.string? with
      | none => .error .nameNotString
      | some name => (r.insert name h).map .stored
  | .str name, none => .ok (.found (r.get? name))
  | other, none => .error (.nameOfType other.typeName)

end Registry
end LiveMarkup
