import NamespaceAccess.Catalog
import NamespaceAccess.Name
import NamespaceAccess.RoleBinding

/-!
Which role bindings can grant anything, and the first rule that a rejected one breaks.
-/
namespace NamespaceAccess

inductive BindingError where
  | invalidNamespace (namespaceName : String)
  | missingName
  | noVerbs (bindingName : String)
  | unknownResourceType (token : String)
  | notNamespaced (token : String)
  | invalidSubAction (token : String)
  deriving DecidableEq, Repr

def BindingError.message : BindingError → String
  | invalidNamespace namespaceName => "invalid role binding namespace: " ++ namespaceName
  | missingName => "role binding name must be set"
  | noVerbs bindingName => "role binding " ++ bindingName ++ " grants no verbs"
  | unknownResourceType token => "unknown resource type: " ++ token
  | notNamespaced token => "resource type is not namespaced: " ++ token
  | invalidSubAction token => "invalid sub-action in resource token: " ++ token

namespace ResourceToken

/-- The resource type ends at the first slash; what follows is the sub-action. -/
def split (token : String) : String × Option String :=
  let base := String.ofList (token.toList.takeWhile (· != '/'))
  match token.toList.dropWhile (· != '/') with
  | [] => (base, none)
  | _ :: action => (base, some (String.ofList action))

theorem forall_bne_slash {l : List Char} (h : '/' ∉ l) : ∀ c ∈ l, (c != '/') = true := by
  intro c hc
  simp only [bne_iff_ne]
  rintro rfl
  exact h hc

theorem takeWhile_append {l r : List Char} (h : '/' ∉ l) :
    (l ++ r).takeWhile (· != '/') = l ++ r.takeWhile (· != '/') :=
  List.takeWhile_append_of_pos (forall_bne_slash h)

theorem dropWhile_append {l r : List Char} (h : '/' ∉ l) :
    (l ++ r).dropWhile (· != '/') = r.dropWhile (· != '/') :=
  List.dropWhile_append_of_pos (forall_bne_slash h)

theorem split_of_not_mem {token : String} (h : '/' ∉ token.toList) :
    split token = (token, none) := by
  have ht : token.toList.takeWhile (· != '/') = token.toList := by
    simpa using takeWhile_append (r := []) h
  have hd : token.toList.dropWhile (· != '/') = [] := by
    simpa using dropWhile_append (r := []) h
  simp [split, ht, hd]

/-- The sub-action may hold further slashes. -/
theorem split_append_slash {base action : String} (h : '/' ∉ base.toList) :
    split (base ++ "/" ++ action) = (base, some action) := by
  simp [split, takeWhile_append h, dropWhile_append h]

def isSubActionChar (c : Char) : Bool := c.isLower || c.isDigit || c == '-'

def isSubAction (s : String) : Bool := !s.isEmpty && s.toList.all isSubActionChar

def error? (token : String) : Option BindingError :=
  let (base, action) := split token
  match Catalog.find? base with
  | none => some (.unknownResourceType token)
  | some d =>
    if !d.namespaced then some (.notNamespaced token)
    else if action.all isSubAction then none
    else some (.invalidSubAction token)

end ResourceToken

namespace RoleBinding

/-- The first rule broken, in the order namespace, name, verbs, resource tokens. -/
def error? (b : RoleBinding) : Option BindingError :=
  if !isName b.namespaceName then some (.invalidNamespace b.namespaceName)
  else if isBlank b.name then some .missingName
  else if b.role.verbs.isEmpty then some (.noVerbs b.name)
  else b.role.resourceTypes.findSome? ResourceToken.error?

theorem error?_eq_none_iff {b : RoleBinding} :
    b.error? = none ↔ isName b.namespaceName ∧ isBlank b.name = false ∧
      b.role.verbs.isEmpty = false ∧
      ∀ token ∈ b.role.resourceTypes, ResourceToken.error? token = none := by
  unfold error?
  cases isName b.namespaceName <;> cases isBlank b.name <;> cases b.role.verbs.isEmpty <;>
    simp

end RoleBinding

end NamespaceAccess
