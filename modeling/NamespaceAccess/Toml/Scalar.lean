import NamespaceAccess.Toml.Text

/-!
Which unquoted texts count as TOML numbers and dates. No setting is a number, so none is read to its
value: a text is refused where it cannot begin a number, or where an underscore or a mark of a float
stands in the wrong place.
-/
namespace NamespaceAccess.Toml

open Scan

/-- Groups of digits, with single underscores between the groups. -/
def isDigitGroups (isDigit : Char → Bool) (cs : List Char) : Bool :=
  (cs.splitOn '_').all fun group => !group.isEmpty && group.all isDigit

def isHexDigit (c : Char) : Bool := (hexDigitValue? c).isSome

def isOctalDigit (c : Char) : Bool := '0' ≤ c && c ≤ '7'

def isBinaryDigit (c : Char) : Bool := c == '0' || c == '1'

def withoutSign : List Char → List Char
  | '+' :: cs => cs
  | '-' :: cs => cs
  | cs => cs

/-- Each underscore has a digit on either side. -/
def underscoresDivide (isDigit : Char → Bool) (cs : List Char) : Bool :=
  let groups := cs.splitOn '_'
  groups.dropLast.all (·.getLast?.any isDigit) && groups.tail.all (·.head?.any isDigit)

/-- The digits after the mark of a base may be missing. -/
def isBasedInteger : List Char → Bool
  | '0' :: 'x' :: cs => cs.isEmpty || isDigitGroups isHexDigit cs
  | '0' :: 'o' :: cs => cs.isEmpty || isDigitGroups isOctalDigit cs
  | '0' :: 'b' :: cs => cs.isEmpty || isDigitGroups isBinaryDigit cs
  | _ => false

def isExponentMark (c : Char) : Bool := c == 'e' || c == 'E'

def isFloatMark (c : Char) : Bool := c == '.' || isExponentMark c

/-- No zeros lead, unless the number is zero itself. From the first underscore on, only spaces and
the marks of a float are refused: there, hexadecimal digits pass for digits next to underscores. -/
def isDecimalInteger (cs : List Char) : Bool :=
  let unsigned := withoutSign cs
  let rest := unsigned.dropWhile Char.isDigit
  unsigned == ['0'] ||
    (!unsigned.isEmpty && unsigned.head? != some '0' &&
      (rest.isEmpty ||
        (rest.head? == some '_' && !rest.any (fun c => c == ' ' || isFloatMark c) &&
          underscoresDivide isHexDigit cs)))

/-- Digits and underscores, at least one of them a digit. -/
def isDigitRun (cs : List Char) : Bool :=
  cs.all (fun c => c.isDigit || c == '_') && cs.any Char.isDigit

/-- No zero leads, unless it is the only digit. -/
def isWholePart (cs : List Char) : Bool :=
  isDigitRun cs && (cs.head? != some '0' || cs.countP Char.isDigit == 1)

/-- A fraction or an exponent or both after the integer part, or one of the two special values. -/
def isFloat (cs : List Char) : Bool :=
  let unsigned := withoutSign cs
  let mantissa := unsigned.takeWhile (!isExponentMark ·)
  let exponent := unsigned.dropWhile (!isExponentMark ·)
  let exponentOk := exponent.isEmpty || isDigitRun (withoutSign (exponent.drop 1))
  unsigned == ['i', 'n', 'f'] || unsigned == ['n', 'a', 'n'] ||
    (exponentOk && underscoresDivide Char.isDigit cs &&
      match mantissa.splitOn '.' with
      | [whole] => !exponent.isEmpty && isWholePart whole
      | [whole, fraction] => isWholePart whole && isDigitRun fraction
      | _ => false)

def digits? (length : Nat) (cs : List Char) : Option Nat :=
  if cs.length = length ∧ cs.all Char.isDigit then
    some (cs.foldl (fun n c => 10 * n + (c.toNat - '0'.toNat)) 0)
  else none

def daysIn (year month : Nat) : Nat :=
  if month = 2 then
    if year % 4 = 0 ∧ (year % 100 ≠ 0 ∨ year % 400 = 0) then 29 else 28
  else if month = 4 ∨ month = 6 ∨ month = 9 ∨ month = 11 then 30
  else 31

def isDate (cs : List Char) : Bool :=
  match cs.splitOn '-' with
  | [year, month, day] =>
    match digits? 4 year, digits? 2 month, digits? 2 day with
    | some y, some m, some d => 1 ≤ m && m ≤ 12 && 1 ≤ d && d ≤ daysIn y m
    | _, _, _ => false
  | _ => false

def isSecond (cs : List Char) : Bool :=
  let fraction := cs.drop 2
  (digits? 2 (cs.take 2)).any (· ≤ 60) &&
    (fraction.isEmpty ||
      (fraction.head? == some '.' && 2 ≤ fraction.length && (fraction.drop 1).all Char.isDigit))

def isHourAndMinute (hour minute : List Char) : Bool :=
  (digits? 2 hour).any (· ≤ 23) && (digits? 2 minute).any (· ≤ 59)

/-- The seconds may be left out. -/
def isTime (cs : List Char) : Bool :=
  match cs.splitOn ':' with
  | [hour, minute] => isHourAndMinute hour minute
  | [hour, minute, second] => isHourAndMinute hour minute && isSecond second
  | _ => false

def isOffset : List Char → Bool
  | [] => true
  | mark :: cs =>
    if mark == 'Z' || mark == 'z' then cs.isEmpty
    else
      match cs.splitOn ':' with
      | [hour, minute] => isHourAndMinute hour minute
      | _ => false

def isOffsetMark (c : Char) : Bool := c == 'Z' || c == 'z' || c == '+' || c == '-'

def isTimeMark (c : Char) : Bool := c == 'T' || c == 't' || c == ' '

def isDateOrTime (cs : List Char) : Bool :=
  isTime cs || isDate cs ||
    (isDate (cs.take 10) && (cs.drop 10).head?.any isTimeMark &&
      isTime ((cs.drop 11).takeWhile (!isOffsetMark ·)) &&
      isOffset ((cs.drop 11).dropWhile (!isOffsetMark ·)))

/-- Characters that no blank, comment, bracket, comma, equals sign or end of a line cuts off. -/
def isBareChar (c : Char) : Bool :=
  !isBlankChar c && ['\n', '\r', '#', '=', ',', '[', ']', '\x7b', '\x7d'].all (· != c)

/-- Blanks and the bare text after them, which does not begin with a quote. -/
def bareContinuation : Scan (List Char) := do
  let blanks ← run1 isBlankChar
  let c ← satisfying fun c => isBareChar c && c != '"' && c != '\''
  let cs ← run isBareChar
  return blanks ++ c :: cs

/-- All that stands before the next punctuation, without the blanks at the end. -/
def bareText : Scan (List Char) := do
  let cs ← run1 isBareChar
  let continuations ← many bareContinuation
  return cs ++ continuations.flatten

end NamespaceAccess.Toml
