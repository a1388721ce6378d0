import NamespaceAccess.Json.Value

/-!
How records, texts and enumerations are found in JSON values.
-/
namespace NamespaceAccess.Json

def text? : Json → Option String
  | string s => s
  | _ => none

def items? : Json → Option (List Json)
  | array items => some items
  | _ => none

def member? (members : List (JsonText × Json)) (name : String) : Option Json :=
  match members.filter fun m => m.1 == some name with
  | [m] => some m.2
  | _ => none

/-- The values of a record's fields, in the order of `names`. An object has each of them exactly
once, whatever else it has; an array has them alone, in their order. -/
def fields? (names : List String) : Json → Option (List Json)
  | array items => if items.length = names.length then some items else none
  | object members =>
    if members.all (·.1.isSome) then names.mapM (member? members) else none
  | _ => none

/-- The name of an enumerated value, which may be written as the one key of an object whose value
is `null`. -/
def variant? : Json → Option String
  | string s => s
  | object [(name, null)] => name
  | _ => none

end NamespaceAccess.Json
