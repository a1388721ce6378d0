import NamespaceAccess.RoleBinding

/-!
Authenticated callers, and the one privilege that is derived from their groups.
-/
namespace NamespaceAccess

def adminRole : String := "isAdmin()"

/-- Members of the admin group have the admin role, and nobody has any other. -/
def computeRoles (groups : GroupSet) (adminGroup : String) : Std.ExtTreeSet String :=
  if groups.contains adminGroup then {adminRole} else ∅

@[simp] theorem adminRole_mem_computeRoles {groups : GroupSet} {adminGroup : String} :
    adminRole ∈ computeRoles groups adminGroup ↔ adminGroup ∈ groups := by
  by_cases h : adminGroup ∈ groups <;> simp [computeRoles, h]

structure Principal where
  username : String
  groups : GroupSet
  /-- What the caller claims; decisions are made from the groups alone. -/
  roles : Std.ExtTreeSet String
  deriving DecidableEq

namespace Principal

def authenticate (username : String) (groups : GroupSet) (adminGroup : String) : Principal where
  username := username
  groups := groups
  roles := computeRoles groups adminGroup

def isAdmin (p : Principal) : Bool := p.roles.contains adminRole

end Principal

end NamespaceAccess
