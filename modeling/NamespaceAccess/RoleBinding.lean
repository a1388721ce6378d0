import Std.Data.ExtTreeMap
import Std.Data.ExtTreeSet

/-!
Role bindings: inside one namespace, a subject may use some verbs on some resource types.
-/
namespace NamespaceAccess

/-- Groups are compared exactly, and listed by code point. -/
abbrev GroupSet := Std.ExtTreeSet String

inductive Verb where
  | get | post | put | delete
  deriving DecidableEq, Repr

namespace Verb

def label : Verb → String
  | get => "GET"
  | post => "POST"
  | put => "PUT"
  | delete => "DELETE"

def ofLabel? : String → Option Verb
  | "GET" => some get
  | "POST" => some post
  | "PUT" => some put
  | "DELETE" => some delete
  | _ => none

def rank : Verb → Nat
  | get => 0
  | post => 1
  | put => 2
  | delete => 3

theorem rank_injective {v w : Verb} (h : v.rank = w.rank) : v = w := by
  cases v <;> cases w <;> first | rfl | cases h

@[simp] theorem ofLabel?_label (v : Verb) : ofLabel? v.label = some v := by cases v <;> rfl

instance : Ord Verb := ⟨compareOn rank⟩

instance : Std.TransOrd Verb := inferInstanceAs (Std.TransCmp (compareOn rank))

instance : Std.LawfulEqOrd Verb where
  eq_of_compare h := rank_injective (Std.LawfulEqOrd.eq_of_compare h)

end Verb

abbrev VerbSet := Std.ExtTreeSet Verb

/-- Groups are the only subjects that can be granted anything. -/
inductive SubjectKind where
  | group | unsupported
  deriving DecidableEq, Repr

namespace SubjectKind

def label : SubjectKind → String
  | group => "GROUP"
  | unsupported => "UNSUPPORTED"

def ofLabel (s : String) : SubjectKind := if s = "GROUP" then group else unsupported

@[simp] theorem ofLabel_label (k : SubjectKind) : ofLabel k.label = k := by cases k <;> rfl

end SubjectKind

structure Subject where
  name : String
  kind : SubjectKind
  deriving DecidableEq

def Subject.matchesAnyGroup (s : Subject) (groups : GroupSet) : Bool :=
  s.kind == .group && groups.contains s.name

structure Role where
  /-- Resource types, or resource types with a sub-action, in the order they were given. -/
  resourceTypes : List String
  verbs : VerbSet
  deriving DecidableEq

structure RoleBinding where
  namespaceName : String
  /-- Unique within the namespace. -/
  name : String
  subject : Subject
  role : Role
  deriving DecidableEq

theorem Subject.matchesAnyGroup_iff {s : Subject} {groups : GroupSet} :
    s.matchesAnyGroup groups ↔ s.kind = .group ∧ s.name ∈ groups := by
  simp [Subject.matchesAnyGroup]

def RoleBinding.appliesTo (b : RoleBinding) (namespaceName : String) (groups : GroupSet) : Bool :=
  b.namespaceName == namespaceName && b.subject.matchesAnyGroup groups

theorem RoleBinding.appliesTo_iff {b : RoleBinding} {namespaceName : String} {groups : GroupSet} :
    b.appliesTo namespaceName groups ↔
      b.namespaceName = namespaceName ∧ b.subject.kind = .group ∧ b.subject.name ∈ groups := by
  simp [RoleBinding.appliesTo, Subject.matchesAnyGroup_iff]

end NamespaceAccess
