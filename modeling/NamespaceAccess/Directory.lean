import NamespaceAccess.Dialogue
import NamespaceAccess.RoleBinding.Validation

/-!
A directory of namespaces by name and of valid role bindings by namespace and name.
-/
namespace NamespaceAccess

structure BindingKey where
  namespaceName : String
  name : String
  deriving DecidableEq, Repr

namespace BindingKey

/-- Keys are listed by namespace and then by name, in code point order. -/
def compare (a b : BindingKey) : Ordering :=
  compareLex (compareOn namespaceName) (compareOn name) a b

instance : Ord BindingKey := ⟨compare⟩

instance : Std.TransOrd BindingKey :=
  inferInstanceAs (Std.TransCmp (compareLex (compareOn namespaceName) (compareOn name)))

instance : Std.LawfulEqOrd BindingKey where
  eq_of_compare {a b} h := by
    have ⟨h1, h2⟩ := Ordering.then_eq_eq.mp (show (Ord.compare a.namespaceName b.namespaceName).then
      (Ord.compare a.name b.name) = .eq from h)
    cases a
    cases b
    simp_all

end BindingKey

def RoleBinding.key (b : RoleBinding) : BindingKey := ⟨b.namespaceName, b.name⟩

structure Directory where
  namespaces : Std.ExtTreeMap String Namespace
  bindings : Std.ExtTreeMap BindingKey RoleBinding
  deriving DecidableEq

namespace Directory

def empty : Directory := ⟨∅, ∅⟩

def insertNamespace (d : Directory) (n : Namespace) : Directory :=
  { d with namespaces := d.namespaces.insert n.name n }

def removeNamespace (d : Directory) (name : String) : Option Namespace × Directory :=
  (d.namespaces[name]?, { d with namespaces := d.namespaces.erase name })

/-- A binding that could grant nothing is refused, and whatever has its key stays. -/
def insertBinding (d : Directory) (b : RoleBinding) : Except BindingError Directory :=
  match b.error? with
  | some e => .error e
  | none => .ok { d with bindings := d.bindings.insert b.key b }

def removeBinding (d : Directory) (key : BindingKey) : Option RoleBinding × Directory :=
  (d.bindings[key]?, { d with bindings := d.bindings.erase key })

def findNamespace (d : Directory) (name : String) : Option Namespace := d.namespaces[name]?

def findBindings (d : Directory) (groups : GroupSet) : List RoleBinding :=
  d.bindings.values.filter (·.subject.matchesAnyGroup groups)

/-- A directory answers every lookup and is not changed by any. -/
def collaborators : Collaborators Directory where
  findNamespace name d := (.ok (d.findNamespace name), d)
  findBindings groups d := (.ok (d.findBindings groups), d)

inductive Change where
  | insertNamespace (n : Namespace)
  | removeNamespace (name : String)
  | insertBinding (b : RoleBinding)
  | removeBinding (key : BindingKey)
  deriving DecidableEq

/-- A change that is refused leaves everything as it was. -/
def apply (d : Directory) : Change → Directory
  | .insertNamespace n => d.insertNamespace n
  | .removeNamespace name => (d.removeNamespace name).2
  | .insertBinding b => (d.insertBinding b).toOption.getD d
  | .removeBinding key => (d.removeBinding key).2

end Directory

end NamespaceAccess
