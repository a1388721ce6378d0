/-!
Scanners: functions that take something off the front of a text, or fail and take nothing.
-/
namespace NamespaceAccess.Toml

abbrev Scan (α : Type) := StateT (List Char) Option α

namespace Scan

variable {α : Type}

def peek? : Scan (Option Char) := fun text => some (text.head?, text)

def satisfying (p : Char → Bool) : Scan Char
  | c :: text => if p c then some (c, text) else none
  | [] => none

def char (c : Char) : Scan Unit := do
  let _ ← satisfying (· == c)

def chars (cs : List Char) : Scan Unit := cs.forM char

/-- The longest run of characters with the property, which may be empty. -/
def run (p : Char → Bool) : Scan (List Char) := fun text =>
  some (text.takeWhile p, text.dropWhile p)

def run1 (p : Char → Bool) : Scan (List Char) := do
  let c ← satisfying p
  let cs ← run p
  return c :: cs

def atEnd : Scan Unit := fun text => if text.isEmpty then some ((), text) else none

def optional (s : Scan Unit) : Scan Unit := s <|> pure ()

/-- One round for each character of `bound`, unless the scanner fails before. -/
def repeatWithin (s : Scan α) : List Char → List α → Scan (List α)
  | [], found, text => some (found.reverse, text)
  | _ :: bound, found, text =>
    match s text with
    | some (a, text) => repeatWithin s bound (a :: found) text
    | none => some (found.reverse, text)

/-- As many times as the scanner succeeds; it has to take something each time, so that the text at
hand bounds the number of rounds. -/
def many (s : Scan α) : Scan (List α) := fun text => repeatWithin s text [] text

end Scan

end NamespaceAccess.Toml
