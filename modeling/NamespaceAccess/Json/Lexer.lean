import NamespaceAccess.Json.Value
import NamespaceAccess.Text

/-!
JSON text cut into tokens by a machine that reads one character at a time.
-/
namespace NamespaceAccess.JsonToken

/-- What one character or one escape contributes to a string: a character, or the first or second
half of a surrogate pair. -/
inductive Piece where
  | char (c : Char)
  | high (unit : Nat)
  | low (unit : Nat)
  deriving DecidableEq, Repr

/-- The meaning of a code unit written with four hexadecimal digits. -/
def Piece.ofUnit (n : Nat) : Piece :=
  if 0xD800 ≤ n && n < 0xDC00 then .high n
  else if 0xDC00 ≤ n && n < 0xE000 then .low n
  else .char (Char.ofNat n)

/-- Joins the halves of surrogate pairs, from the last piece to the first. -/
def joinPieces : List Piece → List Char → Option (List Char)
  | [], text => some text
  | .char c :: r, text => joinPieces r (c :: text)
  | .low l :: .high h :: r, text =>
    joinPieces r (Char.ofNat (0x10000 + (h - 0xD800) * 0x400 + (l - 0xDC00)) :: text)
  | _, _ => none

def textOf (pieces : List Piece) : JsonText := (joinPieces pieces []).map String.ofList

def isBlankChar (c : Char) : Bool := c == ' ' || c == '\t' || c == '\n' || c == '\r'

def unescape? : Char → Option Char
  | '"' => some '"'
  | '\\' => some '\\'
  | '/' => some '/'
  | 'b' => some '\x08'
  | 'f' => some '\x0c'
  | 'n' => some '\n'
  | 'r' => some '\r'
  | 't' => some '\t'
  | _ => none

def isNumberChar (c : Char) : Bool :=
  c.isDigit || c == '-' || c == '+' || c == '.' || c == 'e' || c == 'E'

def isDigits (cs : List Char) : Bool := !cs.isEmpty && cs.all Char.isDigit

def isExponent : List Char → Bool
  | [] => true
  | e :: '+' :: digits => (e == 'e' || e == 'E') && isDigits digits
  | e :: '-' :: digits => (e == 'e' || e == 'E') && isDigits digits
  | e :: digits => (e == 'e' || e == 'E') && isDigits digits

def isFraction : List Char → Bool
  | '.' :: r => isDigits (r.takeWhile Char.isDigit) && isExponent (r.dropWhile Char.isDigit)
  | r => isExponent r

/-- No zeros lead, unless the integer part is zero itself. -/
def isUnsigned : List Char → Bool
  | '0' :: r => isFraction r
  | c :: r => c.isDigit && isFraction (r.dropWhile Char.isDigit)
  | [] => false

def isNumber : List Char → Bool
  | '-' :: r => isUnsigned r
  | r => isUnsigned r

/-- Where the machine stands; what has been read of a token is kept last character first. -/
inductive State where
  | between
  | inWord (letters : List Char)
  | inNumber (chars : List Char)
  | inString (pieces : List Piece)
  | inEscape (pieces : List Piece)
  /-- After `digits` hexadecimal digits with the value `unit`. -/
  | inUnit (pieces : List Piece) (digits : Nat) (unit : Nat)
  deriving DecidableEq, Repr

def ofWord? : List Char → Option JsonToken
  | ['n', 'u', 'l', 'l'] => some .null
  | ['t', 'r', 'u', 'e'] => some (.bool true)
  | ['f', 'a', 'l', 's', 'e'] => some (.bool false)
  | _ => none

def ofNumber? (cs : List Char) : Option JsonToken :=
  if isNumber cs then some (.number (String.ofList cs)) else none

/-- A character outside all tokens is a blank, a token of its own, or begins one. -/
def begin? (c : Char) : Option (List JsonToken × State) :=
  match c with
  | '[' => some ([.openArray], .between)
  | ']' => some ([.closeArray], .between)
  | '\x7b' => some ([.openObject], .between)
  | '\x7d' => some ([.closeObject], .between)
  | ',' => some ([.comma], .between)
  | ':' => some ([.colon], .between)
  | '"' => some ([], .inString [])
  | c =>
    if isBlankChar c then some ([], .between)
    else if c.isDigit || c == '-' then some ([], .inNumber [c])
    else if c.isLower then some ([], .inWord [c])
    else none

/-- Words and numbers end where the next character cannot belong to them. -/
def endWith? (token : Option JsonToken) (c : Char) : Option (List JsonToken × State) := do
  let t ← token
  let (ts, state) ← begin? c
  some (t :: ts, state)

/-- The tokens completed by one more character, and the state after it. -/
def step (state : State) (c : Char) : Option (List JsonToken × State) :=
  match state with
  | .between => begin? c
  | .inWord letters =>
    if c.isLower then some ([], .inWord (c :: letters)) else endWith? (ofWord? letters.reverse) c
  | .inNumber chars =>
    if isNumberChar c then some ([], .inNumber (c :: chars))
    else endWith? (ofNumber? chars.reverse) c
  | .inString pieces =>
    if c = '"' then some ([.string (textOf pieces)], .between)
    else if c = '\\' then some ([], .inEscape pieces)
    else if c.toNat < 0x20 then none
    else some ([], .inString (.char c :: pieces))
  | .inEscape pieces =>
    if c = 'u' then some ([], .inUnit pieces 0 0)
    else (unescape? c).map fun d => ([], .inString (.char d :: pieces))
  | .inUnit pieces digits unit => do
    let n := 16 * unit + (← hexDigitValue? c)
    if digits < 3 then some ([], .inUnit pieces (digits + 1) n)
    else some ([], .inString (Piece.ofUnit n :: pieces))

def finish? : State → Option (List JsonToken)
  | .between => some []
  | .inWord letters => (ofWord? letters.reverse).map fun t => [t]
  | .inNumber chars => (ofNumber? chars.reverse).map fun t => [t]
  | _ => none

/-- Reads on from `state`, with the tokens so far last token first. -/
def lexFrom : List JsonToken → State → List Char → Option (List JsonToken)
  | done, state, [] => (finish? state).map fun ts => done.reverse ++ ts
  | done, state, c :: r =>
    match step state c with
    | none => none
    | some (ts, state) => lexFrom (ts.reverse ++ done) state r

def lex (text : String) : Option (List JsonToken) := lexFrom [] .between text.toList

end NamespaceAccess.JsonToken
