import NamespaceAccess.FilePath

/-!
The files below a working directory, and how paths lead to them.
-/
namespace NamespaceAccess

inductive FileError where
  | emptyPath | badCharacter | nameTooLong | missing | notADirectory | isADirectory
  /-- Whatever else the system reports. -/
  | other (detail : String)
  deriving DecidableEq, Repr

/-- The steps that lead to a place from the working directory, or from the root if the first step is
`/`; each `..` that is kept stands at the front. -/
abbrev Location := List String

structure FileTree where
  files : List (Location × ByteArray)
  directories : List Location

namespace FileTree

def empty : FileTree := ⟨[], []⟩

def insert (t : FileTree) (location : Location) (content : ByteArray) : FileTree :=
  ⟨(location, content) :: t.files.filter (·.1 != location), t.directories⟩

/-- The working directory and all directories above it exist, besides those that were made. -/
def isDirectory (t : FileTree) (location : Location) : Bool :=
  location == ["/"] || location.all (· == "..") || t.directories.contains location

def makeDirectory (t : FileTree) (location : Location) : FileTree :=
  if t.isDirectory location then t else ⟨t.files, location :: t.directories⟩

inductive Spot where
  | directory (location : Location)
  | file (location : Location) (content : ByteArray)
  /-- Nothing, in a directory that exists. -/
  | vacant (location : Location)

def parent (location : Location) : Location :=
  if location == ["/"] then location
  else if location.all (· == "..") then location ++ [".."]
  else location.dropLast

def start (path : String) : Location := if path.toList.head? = some '/' then ["/"] else []

def enter : FileTree × Location → String → FileTree × Location
  | (t, location), ".." => (t, parent location)
  | (t, location), step => (t.makeDirectory (location ++ [step]), location ++ [step])

/-- Writes a file, after the directories on the way to it are made. -/
def create (t : FileTree) (path : String) (content : ByteArray) : FileTree :=
  match (FilePath.steps path).reverse with
  | [] => t
  | name :: between =>
    let (t, location) := between.reverse.foldl enter (t, start path)
    t.insert (location ++ [name]) content

def ofFiles (files : List (String × ByteArray)) : FileTree :=
  files.foldl (fun t f => t.create f.1 f.2) empty

def spotAt (t : FileTree) (location : Location) : Spot :=
  match t.files.lookup location with
  | some content => .file location content
  | none => if t.isDirectory location then .directory location else .vacant location

/-- Only directories lead on. -/
def step (t : FileTree) : Spot → String → Except FileError Spot
  | .file .., _ => .error .notADirectory
  | .vacant _, _ => .error .missing
  | .directory location, piece =>
    if !FilePath.isStep piece then .ok (.directory location)
    else if piece == ".." then .ok (.directory (parent location))
    else if piece.utf8ByteSize > FilePath.maxComponentLength then .error .nameTooLong
    else .ok (t.spotAt (location ++ [piece]))

/-- The system refuses paths that, with the byte that ends them, are longer than 4096 bytes. -/
def find (t : FileTree) (path : String) : Except FileError Spot :=
  if path.isEmpty then .error .emptyPath
  else if path.toList.contains '\x00' then .error .badCharacter
  else if path.utf8ByteSize ≥ FilePath.maxTotalLength then .error .nameTooLong
  else (FilePath.pieces path).foldlM t.step (.directory (start path))

def read (t : FileTree) (path : String) : Except FileError ByteArray := do
  match ← t.find path with
  | .file _ content => .ok content
  | .directory _ => .error .isADirectory
  | .vacant _ => .error .missing

/-- Opening a file to append to it creates it where there is none. -/
def openToAppend (t : FileTree) (path : String) : Except FileError FileTree := do
  match ← t.find path with
  | .file .. => .ok t
  | .directory _ => .error .isADirectory
  | .vacant location => .ok (t.insert location .empty)

def isFile (t : FileTree) (path : String) : Bool :=
  match t.find path with
  | .ok (.file ..) => true
  | _ => false

end FileTree

end NamespaceAccess
