import NamespaceAccess.Text

/-!
File paths cut at their slashes.
-/
namespace NamespaceAccess.FilePath

def pieces (path : String) : List String := (path.toList.splitOn '/').map String.ofList

theorem intercalate_pieces (path : String) : "/".intercalate (pieces path) = path := by
  rw [← String.toList_inj, String.toList_intercalate]
  simp [pieces, List.map_map, Function.comp_def, List.intercalate_splitOn]

theorem slash_not_mem_of_mem_pieces {path piece : String} (h : piece ∈ pieces path) :
    '/' ∉ piece.toList := by
  obtain ⟨cs, hcs, rfl⟩ := List.mem_map.mp h
  simpa using not_mem_of_mem_splitOn hcs

/-- No other texts without slashes are joined to the same path. -/
theorem pieces_intercalate {texts : List String} (hne : texts ≠ [])
    (h : ∀ text ∈ texts, '/' ∉ text.toList) : pieces ("/".intercalate texts) = texts := by
  have hlists : ∀ l ∈ texts.map String.toList, '/' ∉ l := by simpa using h
  have hsplit := List.splitOn_intercalate '/' hlists (by simpa using hne)
  simp [pieces, String.toList_intercalate, hsplit, List.map_map, Function.comp_def]

def isStep (piece : String) : Bool := piece != "" && piece != "."

def steps (path : String) : List String := (pieces path).filter isStep

/-- The root of an absolute path is a component. Empty pieces vanish, and so do single dots, but for
one that starts a relative path. -/
def components (path : String) : List String :=
  match pieces path with
  | [] => []
  | "" :: rest => (if rest.isEmpty then [] else ["/"]) ++ rest.filter isStep
  | first :: rest => first :: rest.filter isStep

/-- Lengths are in bytes of UTF-8. -/
def maxTotalLength : Nat := 4096

def maxComponentLength : Nat := 255

end NamespaceAccess.FilePath
