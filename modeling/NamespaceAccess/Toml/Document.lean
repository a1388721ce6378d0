import NamespaceAccess.Toml.Node
import NamespaceAccess.Toml.Scalar
import NamespaceAccess.Toml.Text

/-!
TOML documents read into tables.
-/
namespace NamespaceAccess.Toml

open Scan

def blanks : Scan Unit := do
  let _ ← run isBlankChar

def comment : Scan (List Char) := do
  char '#'
  run isLineChar

def spacing : Scan Unit := do
  let _ ← many (run1 isBlankChar <|> newline <|> comment)

def isBareKeyChar (c : Char) : Bool := c.isAlphanum || c == '_' || c == '-'

def simpleKey : Scan String :=
  (do return String.ofList (← run1 isBareKeyChar)) <|> basicString <|> literalString

/-- How deep arrays and inline tables may be nested, and how many parts a key may have. -/
def maxDepth : Nat := 80

def key : Scan Key := do
  let first ← simpleKey
  let others ← many do
    blanks
    char '.'
    blanks
    simpleKey
  if maxDepth ≤ others.length then failure
  match others.reverse with
  | [] => return ⟨[], first⟩
  | last :: between => return ⟨first :: between.reverse, last⟩

def assignment (gap : Scan Unit) (value : Scan Node) : Scan Assignment := do
  let k ← key
  gap
  char '='
  gap
  return ⟨k, ← value⟩

/-- Items with commas between them, and perhaps one after the last. -/
def commaSeparated {α : Type} (item : Scan α) : Scan (List α) :=
  (do
    let first ← item
    spacing
    let others ← many do
      char ','
      spacing
      let next ← item
      spacing
      return next
    optional (char ',')
    spacing
    return first :: others) <|> return []

def array (value : Scan Node) : Scan Node := do
  char '['
  spacing
  let items ← commaSeparated value
  char ']'
  return .array items

def inlineTable (value : Scan Node) : Scan Node := do
  char '\x7b'
  spacing
  let assignments ← commaSeparated (assignment spacing value)
  char '\x7d'
  match Entries.assignAll? [] assignments with
  | some t => return .table .inlined t
  | none => failure

def plainValue : Scan Node :=
  (do return .text (← text)) <|> do
    let cs ← bareText
    if cs = "true".toList then return .boolean true
    else if cs = "false".toList then return .boolean false
    else if isBasedInteger cs || isDecimalInteger cs || isFloat cs || isDateOrTime cs then
      return .scalar
    else failure

/-- A value in which arrays and inline tables are nested at most `depth` deep. -/
def value : Nat → Scan Node
  | 0 => plainValue
  | depth + 1 => do
    match ← peek? with
    | some '[' => array (value depth)
    | some '\x7b' => inlineTable (value depth)
    | _ => plainValue

def headerKey : Scan Key := do
  blanks
  let k ← key
  blanks
  return k

def header : Scan Header :=
  (do
    chars ['[', '[']
    let k ← headerKey
    chars [']', ']']
    return .element k) <|> do
    char '['
    let k ← headerKey
    char ']'
    return .table k

inductive Statement where
  | header (h : Header)
  | assignment (a : Assignment)
  | nothing

def statement : Scan Statement :=
  (do return .assignment (← assignment blanks (value maxDepth))) <|> (do return .header (← header)) <|>
    return .nothing

def line : Scan Statement := do
  blanks
  let s ← statement
  blanks
  optional (do let _ ← comment)
  return s

/-- Lines with newlines between them; a byte order mark may stand in front. -/
def statements : Scan (List Statement) := do
  optional (char '\ufeff')
  let lines ← many do
    let s ← line
    let _ ← newline
    return s
  let last ← line
  atEnd
  return lines ++ [last]

def addStatement : Statement → List Assignment × List Section → List Assignment × List Section
  | .nothing, (own, others) => (own, others)
  | .assignment a, (own, others) => (a :: own, others)
  | .header h, (own, others) => ([], ⟨h, own⟩ :: others)

/-- The assignments before the first header, and the sections after it. -/
def sections (statements : List Statement) : List Assignment × List Section :=
  statements.foldr addStatement ([], [])

def Entries.ofStatements? (statements : List Statement) : Option Entries := do
  let (leading, others) := sections statements
  let root ← assignAll? [] leading
  others.foldlM addSection? root

def parse? (document : String) : Option Entries := do
  let statements ← statements.run' document.toList
  Entries.ofStatements? statements

end NamespaceAccess.Toml
