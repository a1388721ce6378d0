/-!
The tables of a TOML document, and how keys and headers may extend them.
-/
namespace NamespaceAccess.Toml

/-- How a table came to be, which decides how it may still be extended. -/
inductive Origin where
  /-- By its own header, or as the top-level table. -/
  | declared
  /-- By the header of a table inside it. -/
  | implied
  /-- By a dotted key. -/
  | dotted
  /-- As a value, which nothing extends. -/
  | inlined
  deriving DecidableEq, Repr

inductive Node where
  | text (s : String)
  | boolean (b : Bool)
  /-- A number or a date, whose value no setting uses. -/
  | scalar
  | array (items : List Node)
  | table (origin : Origin) (entries : List (String × Node))
  /-- An array of tables made by headers. -/
  | tables (elements : List (List (String × Node)))

abbrev Entries := List (String × Node)

namespace Entries

def find? (t : Entries) (key : String) : Option Node := t.lookup key

def insertNew? (t : Entries) (key : String) (n : Node) : Option Entries :=
  if (t.find? key).isSome then none else some ((key, n) :: t)

def replace (t : Entries) (key : String) (n : Node) : Entries :=
  t.map fun e => if e.1 == key then (key, n) else e

/-- Applies `f` to the table at the end of a path, making tables on the way. Headers may enter the
last table of an array of tables and any table but an inline one; dotted keys may not enter a table
that has a header. -/
def descend (dotted : Bool) (f : Origin → Entries → Option Entries) :
    List String → Origin → Entries → Option Entries
  | [], origin, t => f origin t
  | key :: path, _, t =>
    match t.find? key with
    | none => do
      let origin := if dotted then .dotted else .implied
      let inner ← descend dotted f path origin []
      some ((key, .table origin inner) :: t)
    | some (.tables elements) =>
      match elements.reverse with
      | [] => none
      | last :: earlier => do
        let inner ← descend dotted f path .declared last
        some (t.replace key (.tables (inner :: earlier).reverse))
    | some (.table origin inner) =>
      if origin = .inlined then none
      else if dotted && origin = .declared then none
      else do
        let inner ← descend dotted f path origin inner
        some (t.replace key (.table origin inner))
    | some _ => none

/-- Sets a key, which must be new. What a dotted key extends has to be a table that dotted keys
made. -/
def assign? (t : Entries) (path : List String) (key : String) (n : Node) : Option Entries :=
  let isDotted := !path.isEmpty
  t.descend isDotted (fun origin inner =>
    if (origin == .dotted) == isDotted then inner.insertNew? key n else none) path .declared

end Entries

structure Key where
  path : List String
  last : String

structure Assignment where
  key : Key
  value : Node

inductive Header where
  | table (key : Key)
  | element (key : Key)

structure Section where
  header : Header
  assignments : List Assignment

namespace Entries

def assignAll? (t : Entries) (assignments : List Assignment) : Option Entries :=
  assignments.foldlM (fun t a => t.assign? a.key.path a.key.last a.value) t

/-- A header may declare a table that so far is only implied by the headers of inner tables; any
other table has its one header already. -/
def addSection? (root : Entries) (s : Section) : Option Entries :=
  match s.header with
  | .table key =>
    root.descend false (fun _ parent =>
      match parent.find? key.last with
      | none => do
        let t ← assignAll? [] s.assignments
        some ((key.last, .table .declared t) :: parent)
      | some (.table .implied t) => do
        let t ← assignAll? t s.assignments
        some (parent.replace key.last (.table .declared t))
      | some _ => none) key.path .declared
  | .element key =>
    root.descend false (fun _ parent => do
      let t ← assignAll? [] s.assignments
      match parent.find? key.last with
      | none => some ((key.last, .tables [t]) :: parent)
      | some (.tables elements) => some (parent.replace key.last (.tables (elements ++ [t])))
      | some _ => none) key.path .declared

end Entries

end NamespaceAccess.Toml
