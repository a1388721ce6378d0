import NamespaceAccess.Json.Lexer

/-!
JSON values read from their tokens by a machine with a stack of the containers still open, so that
values may be nested to any depth.
-/
namespace NamespaceAccess.Json

/-- A container that is being read, with its contents so far, last one first. -/
inductive Frame where
  | array (before : List Json)
  | object (before : List (JsonText × Json)) (key : JsonText)

/-- What has been read, and so what may follow. -/
inductive Progress where
  | expectValue (stack : List Frame)
  | openedArray (stack : List Frame)
  | openedObject (stack : List Frame)
  | expectKey (before : List (JsonText × Json)) (stack : List Frame)
  | expectColon (before : List (JsonText × Json)) (key : JsonText) (stack : List Frame)
  | readValue (value : Json) (stack : List Frame)

namespace Progress

def beginValue? (stack : List Frame) : JsonToken → Option Progress
  | .null => some (readValue .null stack)
  | .bool b => some (readValue (.bool b) stack)
  | .number n => some (readValue (.number n) stack)
  | .string s => some (readValue (.string s) stack)
  | .openArray => some (openedArray stack)
  | .openObject => some (openedObject stack)
  | _ => none

def step : Progress → JsonToken → Option Progress
  | expectValue stack, t => beginValue? stack t
  | openedArray stack, .closeArray => some (readValue (.array []) stack)
  | openedArray stack, t => beginValue? (.array [] :: stack) t
  | openedObject stack, .closeObject => some (readValue (.object []) stack)
  | openedObject stack, .string key => some (expectColon [] key stack)
  | expectKey before stack, .string key => some (expectColon before key stack)
  | expectColon before key stack, .colon => some (expectValue (.object before key :: stack))
  | readValue v (.array before :: stack), .comma => some (expectValue (.array (v :: before) :: stack))
  | readValue v (.array before :: stack), .closeArray =>
    some (readValue (.array (v :: before).reverse) stack)
  | readValue v (.object before key :: stack), .comma => some (expectKey ((key, v) :: before) stack)
  | readValue v (.object before key :: stack), .closeObject =>
    some (readValue (.object ((key, v) :: before).reverse) stack)
  | _, _ => none

def run : Progress → List JsonToken → Option Progress
  | p, [] => some p
  | p, t :: ts =>
    match p.step t with
    | none => none
    | some p => p.run ts

def value? : Progress → Option Json
  | readValue v [] => some v
  | _ => none

end Progress

def ofTokens? (ts : List JsonToken) : Option Json :=
  ((Progress.expectValue []).run ts).bind Progress.value?

/-- Nothing but blanks may surround the value. -/
def parse? (text : String) : Option Json := (JsonToken.lex text).bind ofTokens?

end NamespaceAccess.Json
