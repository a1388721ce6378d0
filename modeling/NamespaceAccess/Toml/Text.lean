import NamespaceAccess.Text
import NamespaceAccess.Toml.Scan

/-!
The four kinds of TOML strings.
-/
namespace NamespaceAccess.Toml

open Scan

def isBlankChar (c : Char) : Bool := c == ' ' || c == '\t'

/-- Control characters stand in no line of text, tabs excepted. -/
def isLineChar (c : Char) : Bool := c == '\t' || (0x20 ≤ c.toNat && c.toNat != 0x7F)

def newline : Scan (List Char) :=
  (do char '\n'; return ['\n']) <|> (do chars ['\r', '\n']; return ['\r', '\n'])

def hexNumber (digits : Nat) : Scan Nat := fun text => do
  let ds ← (text.take digits).mapM hexDigitValue?
  if ds.length = digits then some (ds.foldl (fun n d => 16 * n + d) 0, text.drop digits) else none

/-- Surrogates and numbers above U+10FFFF are no characters. -/
def codePoint (digits : Nat) : Scan Char := do
  let n ← hexNumber digits
  if n < 0xD800 || (0xDFFF < n && n < 0x110000) then return Char.ofNat n else failure

def escapeSequence : Scan Char := do
  char '\\'
  match ← satisfying fun _ => true with
  | 'b' => return '\x08'
  | 't' => return '\t'
  | 'n' => return '\n'
  | 'f' => return '\x0c'
  | 'r' => return '\r'
  | 'e' => return '\x1b'
  | '"' => return '"'
  | '\\' => return '\\'
  | 'x' => codePoint 2
  | 'u' => codePoint 4
  | 'U' => codePoint 8
  | _ => failure

def basicChar : Scan Char :=
  satisfying (fun c => isLineChar c && c != '"' && c != '\\') <|> escapeSequence

def basicString : Scan String := do
  char '"'
  let cs ← many basicChar
  char '"'
  return String.ofList cs

def literalString : Scan String := do
  char '\''
  let cs ← run fun c => isLineChar c && c != '\''
  char '\''
  return String.ofList cs

/-- One or two quotes that no third follows. -/
def quotesInside (quote : Char) : Scan (List Char) := do
  let qs ← run1 (· == quote)
  if qs.length ≤ 2 then return qs else failure

/-- The three closing quotes, after at most two that belong to the text. -/
def closingQuotes (quote : Char) : Scan (List Char) := do
  let qs ← run (· == quote)
  if 3 ≤ qs.length ∧ qs.length ≤ 5 then return qs.drop 3 else failure

/-- A backslash at the end of a line takes with it all blanks and newlines up to the next text. -/
def joinedLines : Scan (List Char) := do
  char '\\'
  let _ ← run isBlankChar
  let _ ← newline
  let _ ← many (run1 isBlankChar <|> newline)
  return []

def multilineString (quote : Char) (piece : Scan (List Char)) : Scan String := do
  chars [quote, quote, quote]
  optional (do let _ ← newline)
  let pieces ← many (piece <|> newline <|> quotesInside quote)
  let extra ← closingQuotes quote
  return String.ofList (pieces.flatten ++ extra)

def multilineBasicString : Scan String :=
  multilineString '"' ((do return [← basicChar]) <|> joinedLines)

def multilineLiteralString : Scan String :=
  multilineString '\'' (run1 fun c => isLineChar c && c != '\'')

def text : Scan String :=
  multilineBasicString <|> multilineLiteralString <|> basicString <|> literalString

end NamespaceAccess.Toml
