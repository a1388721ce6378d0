import NamespaceAccess.Directory
import NamespaceAccess.Proofs.Answers

/-!
What a directory stores after a change and what its lookups answer, and from both the decisions of
an engine that consults it.
-/
namespace NamespaceAccess

theorem values_eq_map_toList {α β : Type} {cmp : α → α → Ordering} [Std.TransCmp cmp]
    (m : Std.ExtTreeMap α β cmp) : m.values = m.toList.map Prod.snd := by
  obtain ⟨⟨tree⟩⟩ := m
  induction tree using Quotient.ind with
  | _ tree =>
    change tree.inner.values = (Std.DTreeMap.Internal.Impl.Const.toList tree.inner).map Prod.snd
    rw [Std.DTreeMap.Internal.Impl.values_eq_map_snd,
      Std.DTreeMap.Internal.Impl.Const.toList_eq_toListModel_map]
    simp

namespace Directory

variable {d : Directory} {b : RoleBinding} {groups : GroupSet}

/-- The only namespace that a change can touch is the one it names. -/
theorem namespaces_apply (d : Directory) (change : Change) (name : String) :
    (d.apply change).namespaces[name]? =
      match change with
      | .insertNamespace n => if n.name = name then some n else d.namespaces[name]?
      | .removeNamespace removed => if removed = name then none else d.namespaces[name]?
      | .insertBinding _ | .removeBinding _ => d.namespaces[name]? := by
  cases change with
  | insertNamespace n =>
    simp [apply, insertNamespace, Std.ExtTreeMap.getElem?_insert]
  | removeNamespace removed =>
    simp [apply, removeNamespace, Std.ExtTreeMap.getElem?_erase]
  | insertBinding b =>
    simp only [apply, insertBinding]
    split <;> rfl
  | removeBinding key => rfl

/-- The only binding that a change can touch is the one under the key it names, and a binding that
is refused touches none. -/
theorem bindings_apply (d : Directory) (change : Change) (key : BindingKey) :
    (d.apply change).bindings[key]? =
      match change with
      | .insertBinding b => if b.error? = none ∧ b.key = key then some b else d.bindings[key]?
      | .removeBinding removed => if removed = key then none else d.bindings[key]?
      | .insertNamespace _ | .removeNamespace _ => d.bindings[key]? := by
  cases change with
  | insertBinding b =>
    simp only [apply, insertBinding]
    split
    next e he => simp [he, Except.toOption]
    next he => simp [he, Except.toOption, Std.ExtTreeMap.getElem?_insert]
  | removeBinding removed =>
    simp [apply, removeBinding, Std.ExtTreeMap.getElem?_erase]
  | insertNamespace n => rfl
  | removeNamespace name => rfl

def Stores (d : Directory) (b : RoleBinding) : Prop := ∃ key : BindingKey, d.bindings[key]? = some b

theorem mem_values_iff : b ∈ d.bindings.values ↔ d.Stores b := by
  simp only [Stores, values_eq_map_toList, List.mem_map, Prod.exists, exists_eq_right,
    Std.ExtTreeMap.mem_toList_iff_getElem?_eq_some]

theorem mem_findBindings_iff :
    b ∈ d.findBindings groups ↔
      d.Stores b ∧ b.subject.kind = .group ∧ b.subject.name ∈ groups := by
  rw [findBindings, List.mem_filter, mem_values_iff, Subject.matchesAnyGroup_iff]

theorem state_run {α : Type} (dialogue : Dialogue α) :
    (dialogue.run collaborators d).state = d := by
  induction dialogue with
  | done a => rfl
  | findNamespace name next ih => exact ih _
  | findBindings groups next ih => exact ih _
  | record event next ih => exact ih

/-- Looking bindings up by group loses none that applies. -/
theorem exists_grants_findBindings_iff {namespaceName token : String} {verb : Option Verb} :
    (∃ b ∈ d.findBindings groups, b.Grants namespaceName groups token verb) ↔
      ∃ b, d.Stores b ∧ b.Grants namespaceName groups token verb := by
  constructor
  · rintro ⟨b, hb, hgrants⟩
    exact ⟨b, (mem_findBindings_iff.mp hb).1, hgrants⟩
  · rintro ⟨b, hstored, hgrants⟩
    exact ⟨b, mem_findBindings_iff.mpr ⟨hstored, hgrants.1.2⟩, hgrants⟩

/-- The states that changes lead to from the empty directory. -/
inductive Reachable : Directory → Prop where
  | empty : Reachable .empty
  | apply {d : Directory} (change : Change) : Reachable d → Reachable (d.apply change)

/-- Whatever is stored was valid when it came in, and it has its own key. -/
theorem Reachable.stored (h : d.Reachable) {key : BindingKey} (hb : d.bindings[key]? = some b) :
    b.error? = none ∧ b.key = key := by
  induction h with
  | empty => simp [Directory.empty] at hb
  | @apply d change _ ih =>
    rw [bindings_apply] at hb
    cases change with
    | insertBinding inserted =>
      simp only at hb
      split at hb
      next hinserted =>
        cases hb
        exact hinserted
      next => exact ih hb
    | removeBinding removed =>
      simp only at hb
      split at hb
      next => contradiction
      next => exact ih hb
    | insertNamespace n => exact ih hb
    | removeNamespace name => exact ih hb

theorem Reachable.stores_iff (h : d.Reachable) : d.Stores b ↔ d.bindings[b.key]? = some b := by
  constructor
  · rintro ⟨key, hb⟩
    rw [(h.stored hb).2, hb]
  · exact fun hb => ⟨b.key, hb⟩

section sample

def sampleConfig : EngineConfig := ⟨"admins", true⟩

def sampleCaller : Principal := ⟨"ann", {"dev"}, ∅⟩

def sampleBinding (namespaceName token : String) (verbs : VerbSet) : RoleBinding :=
  ⟨namespaceName, "devs", ⟨"dev", .group⟩, ⟨[token], verbs⟩⟩

end sample

end Directory

namespace EngineConfig

variable {config : EngineConfig} {d : Directory} {request : AccessRequest} {p : Principal}
  {r : ResourceRequest}

/-- A directory never fails, so nothing but the namespace, the admin group and the bindings counts. -/
theorem answer_collaborators (hr : RequestPath.classify request.path = some r) :
    config.answer Directory.collaborators d request (some p) =
      match d.namespaces[r.namespaceName]? with
      | none => .error (.denied (.unknown r.namespaceName))
      | some _ =>
        if config.adminGroup ∈ p.groups then .ok .allowed
        else Judgement.result ((GrantSet.build r.namespaceName p.groups
          (d.findBindings p.groups)).judge config.enforceVerbs r request.verb) := by
  cases hn : d.namespaces[r.namespaceName]? with
  | none => exact answer_of_noNamespace hr (congrArg Except.ok hn)
  | some n =>
    have hfound : (Directory.collaborators.findNamespace r.namespaceName d).1 = .ok (some n) :=
      congrArg Except.ok hn
    by_cases ha : config.adminGroup ∈ p.groups
    · rw [answer_of_admin hr hfound ha, if_pos ha]
    · rw [answer_of_bindings hr hfound ha rfl, if_neg ha]
      rfl

/-- Outside the admin group a caller is let in by a stored namespace and one stored binding. -/
theorem answer_collaborators_eq_allowed_iff (hr : RequestPath.classify request.path = some r)
    (ha : config.adminGroup ∉ p.groups) :
    config.answer Directory.collaborators d request (some p) = .ok .allowed ↔
      (∃ n, d.namespaces[r.namespaceName]? = some n) ∧
        ∃ b, d.Stores b ∧
          b.Grants r.namespaceName p.groups r.grantToken (config.requiredVerb request.verb) := by
  rw [← Directory.exists_grants_findBindings_iff, answer_collaborators hr]
  cases d.namespaces[r.namespaceName]? with
  | none => simp
  | some n =>
    simp only [if_neg ha, result_judge_build_eq_allowed_iff]
    simp

end EngineConfig

end NamespaceAccess
