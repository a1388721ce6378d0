import NamespaceAccess.Name

/-!
Request paths that address a resource type, a resource or a sub-action inside a namespace, read
after the last segment that can introduce a namespace.
-/
namespace NamespaceAccess

structure ResourceRequest where
  namespaceName : String
  resourceType : String
  resourceName : Option String
  subAction : Option String
  deriving DecidableEq, Repr

namespace ResourceRequest

/-- What a role has to list for the request to be granted. -/
def grantToken (r : ResourceRequest) : String :=
  match r.subAction with
  | none => r.resourceType
  | some action => r.resourceType ++ "/" ++ action

/-- The segments that address the request, after the one that introduces its namespace. -/
def segments (r : ResourceRequest) : List String :=
  r.namespaceName :: r.resourceType :: (r.resourceName.toList ++ r.subAction.toList)

def ofSegments? : List String → Option ResourceRequest
  | [namespaceName, resourceType] => some ⟨namespaceName, resourceType, none, none⟩
  | [namespaceName, resourceType, resourceName] =>
    some ⟨namespaceName, resourceType, some resourceName, none⟩
  | [namespaceName, resourceType, resourceName, subAction] =>
    some ⟨namespaceName, resourceType, some resourceName, some subAction⟩
  | _ => none

end ResourceRequest

namespace RequestPath

/-- The segment that introduces a namespace. -/
def anchor : String := "namespaces"

def join (segments : List String) (trailingSlash : Bool) : String :=
  "/" ++ "/".intercalate segments ++ if trailingSlash then "/" else ""

/-- Where a request is reached below `before`. -/
def render (before : List String) (r : ResourceRequest) (trailingSlash : Bool) : String :=
  join (before ++ anchor :: r.segments) trailingSlash

def dropTrailingEmpty (segments : List String) : List String :=
  if segments.getLast? = some "" then segments.dropLast else segments

theorem dropTrailingEmpty_concat {segments : List String} :
    dropTrailingEmpty (segments ++ [""]) = segments := by
  simp [dropTrailingEmpty]

theorem dropTrailingEmpty_of_getLast? {segments : List String} (h : segments.getLast? ≠ some "") :
    dropTrailingEmpty segments = segments := by
  simp [dropTrailingEmpty, h]

/-- The segments of an absolute path; a single trailing slash is tolerated. -/
def segments? (path : String) : Option (List String) :=
  match path.toList with
  | '/' :: rest => some (dropTrailingEmpty ((rest.splitOn '/').map String.ofList))
  | _ => none

theorem splitOn_join {segments : List String} (hne : segments ≠ [])
    (h : ∀ s ∈ segments, '/' ∉ s.toList) :
    (('/' :: []).intercalate (segments.map String.toList)).splitOn '/' =
      segments.map String.toList := by
  apply List.splitOn_intercalate
  · intro l hl
    obtain ⟨s, hs, rfl⟩ := List.mem_map.mp hl
    exact h s hs
  · simpa using hne

theorem toList_join (segments : List String) :
    (join segments false).toList = '/' :: ['/'].intercalate (segments.map String.toList) := by
  simp [join, String.toList_intercalate]

/-- What is joined from segments without slashes is cut into them again. -/
theorem segments?_join {segments : List String} (hne : segments ≠ [])
    (h : ∀ s ∈ segments, '/' ∉ s.toList) (hlast : segments.getLast? ≠ some "") :
    segments? (join segments false) = some segments := by
  have hmap : (segments.map String.toList).map String.ofList = segments := by
    simp [List.map_map, Function.comp_def, String.ofList_toList]
  simp only [segments?, toList_join, splitOn_join hne h, hmap]
  rw [dropTrailingEmpty_of_getLast? hlast]

/-- Splits at the last anchor that two to four segments follow. -/
def splitAtAnchor? : List String → Option (List String × List String)
  | [] => none
  | s :: rest =>
    match splitAtAnchor? rest with
    | some (before, tail) => some (s :: before, tail)
    | none =>
      if s = anchor ∧ 2 ≤ rest.length ∧ rest.length ≤ 4 then some ([], rest) else none

/-- Reads a path as a request; paths that address nothing inside a namespace are not classified. -/
def classify (path : String) : Option ResourceRequest := do
  let segments ← segments? path
  let (before, tail) ← splitAtAnchor? segments
  if before.all (!·.isEmpty) && tail.all isName then
    ResourceRequest.ofSegments? tail
  else
    none

end RequestPath

end NamespaceAccess
