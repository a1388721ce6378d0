import NamespaceAccess.RoleBinding

/-!
What is recorded about each access decision and each listing of the catalog.
-/
namespace NamespaceAccess

structure DecisionEvent where
  path : String
  /-- Absent when the caller is not authenticated, as are the four fields read off the path. -/
  username : Option String
  namespaceName : Option String
  resourceType : Option String
  resourceName : Option String
  subAction : Option String
  verb : Option Verb
  outcome : String
  reason : String
  deriving DecidableEq, Repr

inductive ListingScope where
  | anonymous | admin | granted
  deriving DecidableEq, Repr

def ListingScope.label : ListingScope → String
  | anonymous => "anonymous"
  | admin => "admin"
  | granted => "granted"

structure ListingEvent where
  username : Option String
  scope : ListingScope
  visible : List String
  deriving DecidableEq, Repr

inductive AuditEvent where
  | decision (event : DecisionEvent)
  | listing (event : ListingEvent)
  deriving DecidableEq, Repr

end NamespaceAccess
