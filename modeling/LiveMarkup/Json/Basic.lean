/-!
# JSON documents

Documents keep whole numbers apart from other numbers, and an object keeps its members in
ascending order of their names, each name once.

Main definitions:

- `Json`: a document.
- `Json.insertField`: sets a member of an object, keeping the order of the names.
- `Json.field?`: the member of an object under a name.
-/

namespace LiveMarkup

/-- A JSON document. -/
inductive Json where
  | null
  | bool (b : Bool)
  | int (n : Int)
  | float (f : Float)
  | str (s : String)
  | arr (items : List Json)
  | obj (fields : List (String × Json))
  deriving Inhabited

namespace Json

/-- Set a member among members in ascending order of their names. -/
def insertField (name : String) (value : Json) :
    List (String × Json) → List (String × Json)
  | [] => [(name, value)]
  | (other, held) :: rest =>
    if name < other then (name, value) :: (other, held) :: rest
    else if name = other then (name, value) :: rest
    else (other, held) :: insertField name value rest

/-- The member of an object under a name. -/
def field? (j : Json) (name : String) : Option Json :=
  match j with
  | .obj fields => fields.lookup name
  | _ => none

end Json
end LiveMarkup
