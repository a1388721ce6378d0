import NamespaceAccess.ResourceRequest
import NamespaceAccess.RoleBinding

/-!
What a set of groups may do inside one namespace, collected from the bindings that apply there.
-/
namespace NamespaceAccess

structure GrantSet where
  /-- Whether any binding applies, even one that lists no resource types. -/
  bound : Bool
  /-- For each granted token, the verbs of all bindings that list it. -/
  verbs : Std.ExtTreeMap String VerbSet
  deriving DecidableEq

namespace GrantSet

def empty : GrantSet := ⟨false, ∅⟩

def addToken (allowed : VerbSet) (verbs : Std.ExtTreeMap String VerbSet) (token : String) :
    Std.ExtTreeMap String VerbSet :=
  verbs.insert token (verbs.getD token ∅ ∪ allowed)

theorem mem_addToken {allowed : VerbSet} {verbs : Std.ExtTreeMap String VerbSet}
    {token t : String} : t ∈ addToken allowed verbs token ↔ t = token ∨ t ∈ verbs := by
  rw [addToken, Std.ExtTreeMap.mem_insert, Std.LawfulEqCmp.compare_eq_iff_eq, eq_comm]

def addRole (g : GrantSet) (role : Role) : GrantSet :=
  ⟨true, role.resourceTypes.foldl (addToken role.verbs) g.verbs⟩

/-- The namespace is checked here, whatever else the bindings cover. -/
def build (namespaceName : String) (groups : GroupSet) (bindings : List RoleBinding) : GrantSet :=
  (bindings.filter (·.appliesTo namespaceName groups)).foldl (fun g b => g.addRole b.role) empty

def unscopedTokens (groups : GroupSet) (bindings : List RoleBinding) : Std.ExtTreeSet String :=
  .ofList ((bindings.filter (·.subject.matchesAnyGroup groups)).flatMap (·.role.resourceTypes))

def isEmpty (g : GrantSet) : Bool := !g.bound

def contains (g : GrantSet) (token : String) : Bool := g.verbs.contains token

def tokens (g : GrantSet) : Std.ExtTreeSet String := .ofList g.verbs.keys

@[simp] theorem mem_tokens {g : GrantSet} {token : String} :
    token ∈ g.tokens ↔ g.contains token := by
  simp [tokens, contains]

/-- Without a verb it is enough that the token is granted. -/
def permits (g : GrantSet) (r : ResourceRequest) (verb : Option Verb) : Bool :=
  match g.verbs[r.grantToken]? with
  | none => false
  | some allowed => verb.all allowed.contains

end GrantSet

end NamespaceAccess
