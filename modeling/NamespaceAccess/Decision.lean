import NamespaceAccess.RoleBinding

/-!
Answers to an access request, and the ways in which one can be refused or fail.
-/
namespace NamespaceAccess

/-- A decision of `unknown` abstains and leaves the answer to others. -/
inductive Decision where
  | allowed | forbidden | unknown
  deriving DecidableEq, Repr

def Decision.label : Decision → String
  | allowed => "allowed"
  | forbidden => "forbidden"
  | unknown => "unknown"

/-- Why a whole namespace is out of reach: it does not exist, or no binding of the caller applies
there. -/
inductive NamespaceDenial where
  | unknown (namespaceName : String)
  | forbidden (namespaceName : String)
  deriving DecidableEq, Repr

namespace NamespaceDenial

def namespaceName : NamespaceDenial → String
  | unknown n => n
  | forbidden n => n

def reason : NamespaceDenial → String
  | unknown _ => "unknown_namespace"
  | forbidden _ => "forbidden_namespace"

def message : NamespaceDenial → String
  | unknown n => "Accessing unknown namespace \"" ++ n ++ "\""
  | forbidden n => "Accessing forbidden namespace \"" ++ n ++ "\""

structure Response where
  status : Nat
  reason : String
  namespaceName : String
  message : String
  deriving DecidableEq, Repr

def response (d : NamespaceDenial) : Response where
  status := 403
  reason := d.reason
  namespaceName := d.namespaceName
  message := d.message

end NamespaceDenial

inductive LookupError where
  | unavailable (detail : String)
  | corrupted (detail : String)
  deriving DecidableEq, Repr

def LookupError.message : LookupError → String
  | unavailable detail => "lookup unavailable: " ++ detail
  | corrupted detail => "lookup data corrupted: " ++ detail

inductive AccessError where
  | denied (denial : NamespaceDenial)
  | lookupFailed (error : LookupError)
  deriving DecidableEq, Repr

namespace AccessError

def label : AccessError → String
  | denied d => d.reason
  | lookupFailed _ => "lookup_error"

def message : AccessError → String
  | denied d => d.message
  | lookupFailed e => e.message

end AccessError

abbrev AccessResult := Except AccessError Decision

def outcomeLabel : AccessResult → String
  | .ok d => d.label
  | .error e => e.label

end NamespaceAccess
