/-!
JSON values, the tokens that spell them, and their compact text.
-/
namespace NamespaceAccess

/-- What a string literal spells; an escaped half of a surrogate pair that stands alone spells no
text. -/
abbrev JsonText := Option String

inductive Json where
  | null
  | bool (value : Bool)
  | number (spelling : String)
  | string (text : JsonText)
  | array (items : List Json)
  | object (members : List (JsonText × Json))

inductive JsonToken where
  | openArray | closeArray | openObject | closeObject | comma | colon
  | null
  | bool (value : Bool)
  | number (spelling : String)
  | string (text : JsonText)
  deriving DecidableEq, Repr

namespace Json

def ofString (s : String) : Json := string (some s)

def ofNat (n : Nat) : Json := number n.repr

def ofOption {α : Type} (f : α → Json) : Option α → Json
  | none => null
  | some a => f a

def record (members : List (String × Json)) : Json :=
  object (members.map fun m => (some m.1, m.2))

mutual

def tokens : Json → List JsonToken
  | null => [.null]
  | bool b => [.bool b]
  | number n => [.number n]
  | string s => [.string s]
  | array items => .openArray :: itemTokens items ++ [.closeArray]
  | object members => .openObject :: memberTokens members ++ [.closeObject]

def itemTokens : List Json → List JsonToken
  | [] => []
  | [v] => tokens v
  | v :: w :: r => tokens v ++ .comma :: itemTokens (w :: r)

def memberTokens : List (JsonText × Json) → List JsonToken
  | [] => []
  | [(k, v)] => .string k :: .colon :: tokens v
  | (k, v) :: m :: r => .string k :: .colon :: tokens v ++ .comma :: memberTokens (m :: r)

end

end Json

namespace JsonToken

def hexDigit (n : Nat) : Char :=
  if n < 10 then Char.ofNat ('0'.toNat + n) else Char.ofNat ('a'.toNat + (n - 10))

/-- Quotes, backslashes and the characters below U+0020 are escaped, and no others. -/
def escape (c : Char) : List Char :=
  match c with
  | '"' => ['\\', '"']
  | '\\' => ['\\', '\\']
  | '\x08' => ['\\', 'b']
  | '\x0c' => ['\\', 'f']
  | '\n' => ['\\', 'n']
  | '\r' => ['\\', 'r']
  | '\t' => ['\\', 't']
  | c =>
    if c.toNat < 0x20 then ['\\', 'u', '0', '0', hexDigit (c.toNat / 16), hexDigit (c.toNat % 16)]
    else [c]

def quote (s : List Char) : List Char := '"' :: s.flatMap escape ++ ['"']

def spell : JsonToken → List Char
  | openArray => ['[']
  | closeArray => [']']
  | openObject => ['\x7b']
  | closeObject => ['\x7d']
  | comma => [',']
  | colon => [':']
  | null => "null".toList
  | bool true => "true".toList
  | bool false => "false".toList
  | number n => n.toList
  | string (some s) => quote s.toList
  | string none => "\"\\ud800\"".toList

@[simp] theorem spell_null : spell null = ['n', 'u', 'l', 'l'] := String.toList_ofList

@[simp] theorem spell_true : spell (bool true) = ['t', 'r', 'u', 'e'] := String.toList_ofList

@[simp] theorem spell_false : spell (bool false) = ['f', 'a', 'l', 's', 'e'] :=
  String.toList_ofList

@[simp] theorem spell_number (n : String) : spell (number n) = n.toList := rfl

@[simp] theorem spell_string (s : String) : spell (string (some s)) = quote s.toList := rfl

end JsonToken

/-- No blanks between the tokens. -/
def Json.compact (v : Json) : String := String.ofList (v.tokens.flatMap JsonToken.spell)

end NamespaceAccess
