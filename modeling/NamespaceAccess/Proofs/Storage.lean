import NamespaceAccess.Proofs.History
import Mathlib.Tactic.Tauto

/-!
The laws of storage: what is in a directory that clients have changed, in which order it is listed,
and which single entry a change can touch.
-/
namespace NamespaceAccess

def codePoints (s : String) : List Nat := s.toList.map Char.toNat

theorem map_toNat_lt_iff {l m : List Char} : l.map Char.toNat < m.map Char.toNat ↔ l < m := by
  induction l generalizing m with
  | nil => cases m <;> simp
  | cons c l ih =>
    cases m with
    | nil => simp
    | cons e m =>
      simp only [List.map_cons, List.cons_lt_cons_iff, ih, Char.toNat_inj]
      exact Iff.rfl

theorem compare_eq_lt_iff_codePoints {s t : String} :
    compare s t = .lt ↔ codePoints s < codePoints t := by
  have hlt : compare s t = .lt ↔ s < t := compareOfLessAndEq_eq_lt
  rw [hlt, String.lt_iff, codePoints, codePoints, map_toNat_lt_iff]

/-- Bindings of one namespace stand together, and the names decide among them. -/
def BindingKey.Before (a b : BindingKey) : Prop :=
  codePoints a.namespaceName < codePoints b.namespaceName ∨
    a.namespaceName = b.namespaceName ∧ codePoints a.name < codePoints b.name

theorem BindingKey.before_of_compare {a b : BindingKey} (h : compare a b = .lt) : a.Before b := by
  have h' : (Ord.compare a.namespaceName b.namespaceName).then (Ord.compare a.name b.name) = .lt := h
  rcases Ordering.then_eq_lt.mp h' with hnamespace | ⟨hnamespace, hname⟩
  · exact .inl (compare_eq_lt_iff_codePoints.mp hnamespace)
  · exact .inr ⟨Std.LawfulEqOrd.eq_of_compare hnamespace, compare_eq_lt_iff_codePoints.mp hname⟩

theorem BindingKey.not_before_self (a : BindingKey) : ¬ a.Before a := by
  rintro (h | ⟨-, h⟩) <;> exact List.lt_irrefl _ h

namespace Directory

inductive Entry where
  | namespaceNamed (name : String)
  | bindingAt (key : BindingKey)
  deriving DecidableEq

inductive Stored where
  | ofNamespace (n : Namespace)
  | ofBinding (b : RoleBinding)

def stored? (d : Directory) : Entry → Option Stored
  | .namespaceNamed name => d.namespaces[name]?.map .ofNamespace
  | .bindingAt key => d.bindings[key]?.map .ofBinding

namespace Change

def entry : Change → Entry
  | insertNamespace n => .namespaceNamed n.name
  | removeNamespace name => .namespaceNamed name
  | insertBinding b => .bindingAt b.key
  | removeBinding key => .bindingAt key

/-- What a change makes of its entry; a binding that is refused takes nobody's place. -/
def leaves : Change → Option Stored → Option Stored
  | insertNamespace n, _ => some (.ofNamespace n)
  | removeNamespace _, _ => none
  | insertBinding b, old => if b.error? = none then some (.ofBinding b) else old
  | removeBinding _, _ => none

end Change

variable {d e : Directory} {change other : Change} {groups : GroupSet}

theorem eq_of_stored?_eq (h : ∀ entry, d.stored? entry = e.stored? entry) : d = e := by
  have hn : d.namespaces = e.namespaces := by
    apply Std.ExtTreeMap.ext_getElem?
    intro name
    exact Option.map_injective (fun _ _ => Stored.ofNamespace.inj) (h (.namespaceNamed name))
  have hb : d.bindings = e.bindings := by
    apply Std.ExtTreeMap.ext_getElem?
    intro key
    exact Option.map_injective (fun _ _ => Stored.ofBinding.inj) (h (.bindingAt key))
  cases d
  cases e
  simp_all

/-- Every change reads and writes its own entry alone. -/
theorem stored?_apply (d : Directory) (change : Change) (entry : Entry) :
    (d.apply change).stored? entry =
      if change.entry = entry then change.leaves (d.stored? entry) else d.stored? entry := by
  cases entry with
  | namespaceNamed name =>
    rw [stored?, namespaces_apply]
    cases change with
    | insertNamespace n =>
      by_cases h : n.name = name <;> simp [Change.entry, Change.leaves, stored?, h]
    | removeNamespace removed =>
      by_cases h : removed = name <;> simp [Change.entry, Change.leaves, stored?, h]
    | insertBinding b => simp [Change.entry, stored?]
    | removeBinding key => simp [Change.entry, stored?]
  | bindingAt key =>
    rw [stored?, bindings_apply]
    cases change with
    | insertNamespace n => simp [Change.entry, stored?]
    | removeNamespace name => simp [Change.entry, stored?]
    | insertBinding b =>
      by_cases h : b.key = key <;> by_cases h' : b.error? = none <;>
        simp [Change.entry, Change.leaves, stored?, h, h']
    | removeBinding removed =>
      by_cases h : removed = key <;> simp [Change.entry, Change.leaves, stored?, h]

theorem stored?_apply_self (d : Directory) (change : Change) :
    (d.apply change).stored? change.entry = change.leaves (d.stored? change.entry) := by
  rw [stored?_apply, if_pos rfl]

theorem stored?_apply_of_ne {entry : Entry} (h : change.entry ≠ entry) :
    (d.apply change).stored? entry = d.stored? entry := by
  rw [stored?_apply, if_neg h]

theorem apply_apply_comm (h : change.entry ≠ other.entry) :
    (d.apply change).apply other = (d.apply other).apply change := by
  apply eq_of_stored?_eq
  intro entry
  by_cases hother : other.entry = entry
  · subst hother
    rw [stored?_apply_self, stored?_apply_of_ne h, stored?_apply_of_ne h, stored?_apply_self]
  · rw [stored?_apply_of_ne hother]
    by_cases hchange : change.entry = entry
    · subst hchange
      rw [stored?_apply_self, stored?_apply_self, stored?_apply_of_ne hother]
    · rw [stored?_apply_of_ne hchange, stored?_apply_of_ne hchange, stored?_apply_of_ne hother]

/-- What a change returns depends on what its own entry holds, and on nothing else. -/
theorem reply_congr (h : d.stored? change.entry = e.stored? change.entry) :
    d.reply (.change change) = e.reply (.change change) := by
  cases change with
  | insertNamespace n => rfl
  | removeNamespace name =>
    have hn : d.namespaces[name]? = e.namespaces[name]? :=
      Option.map_injective (fun _ _ => Stored.ofNamespace.inj) h
    exact congrArg Reply.namespaceRemoved hn
  | insertBinding b => rw [reply_insertBinding, reply_insertBinding]
  | removeBinding key =>
    have hb : d.bindings[key]? = e.bindings[key]? :=
      Option.map_injective (fun _ _ => Stored.ofBinding.inj) h
    exact congrArg Reply.bindingRemoved hb

theorem reply_apply_of_ne (h : change.entry ≠ other.entry) :
    (d.apply change).reply (.change other) = d.reply (.change other) :=
  reply_congr (stored?_apply_of_ne h)

theorem apply_of_refused {b : RoleBinding} {error : BindingError} (h : b.error? = some error) :
    d.apply (.insertBinding b) = d := by
  simp [apply, insertBinding, h, Except.toOption]

theorem Reachable.foldl (h : d.Reachable) (changes : List Change) :
    (changes.foldl Directory.apply d).Reachable := by
  induction changes generalizing d with
  | nil => exact h
  | cons change changes ih => exact ih (.apply change h)

/-- The listing follows the keys, so it is sorted and lists no binding twice. -/
theorem Reachable.pairwise_findBindings (h : d.Reachable) :
    (d.findBindings groups).Pairwise fun a b => a.key.Before b.key := by
  have hkeys : d.bindings.toList.Pairwise fun a b => a.2.key.Before b.2.key := by
    apply (Std.ExtTreeMap.ordered_keys_toList (t := d.bindings)).imp_of_mem
    intro a b ha hb hlt
    rw [(h.stored (Std.ExtTreeMap.mem_toList_iff_getElem?_eq_some.mp ha)).2,
      (h.stored (Std.ExtTreeMap.mem_toList_iff_getElem?_eq_some.mp hb)).2]
    exact BindingKey.before_of_compare hlt
  have hvalues : d.bindings.values.Pairwise fun a b => a.key.Before b.key := by
    rw [values_eq_map_toList]
    exact List.pairwise_map.mpr hkeys
  exact hvalues.filter _

theorem Reachable.nodup_findBindings (h : d.Reachable) : (d.findBindings groups).Nodup := by
  apply (h.pairwise_findBindings).imp
  rintro a b hbefore rfl
  exact a.key.not_before_self hbefore

/-- The record is the last to come in under the name, and the name was not removed since. -/
def PutLast (changes : List Change) (name : String) (n : Namespace) : Prop :=
  ∃ older newer, changes = older ++ .insertNamespace n :: newer ∧ n.name = name ∧
    ∀ later ∈ newer, later.entry ≠ .namespaceNamed name

section puts

variable {changes : List Change} {name : String} {n : Namespace}

theorem not_putLast_nil : ¬ PutLast [] name n := by
  rintro ⟨older, newer, h, -⟩
  simp at h

theorem putLast_cons :
    PutLast (change :: changes) name n ↔ PutLast changes name n ∨
      (change = .insertNamespace n ∧ n.name = name) ∧
        ∀ later ∈ changes, later.entry ≠ .namespaceNamed name := by
  constructor
  · rintro ⟨older, newer, h, hname, hnewer⟩
    rcases List.cons_eq_append_iff.mp h with ⟨rfl, h⟩ | ⟨older, rfl, rfl⟩
    · obtain ⟨rfl, rfl⟩ := List.cons.inj h
      exact .inr ⟨⟨rfl, hname⟩, hnewer⟩
    · exact .inl ⟨older, newer, rfl, hname, hnewer⟩
  · rintro (⟨older, newer, rfl, hname, hnewer⟩ | ⟨⟨rfl, hname⟩, hnewer⟩)
    · exact ⟨change :: older, newer, rfl, hname, hnewer⟩
    · exact ⟨[], changes, rfl, hname, hnewer⟩

theorem namespaces_apply_eq_some_iff :
    (d.apply change).namespaces[name]? = some n ↔
      (change = .insertNamespace n ∧ n.name = name) ∨
        (change.entry ≠ .namespaceNamed name ∧ d.namespaces[name]? = some n) := by
  rw [namespaces_apply]
  cases change with
  | insertNamespace inserted =>
    by_cases h : inserted.name = name
    · simp only [h, if_true, Option.some_inj, Change.entry, Change.insertNamespace.injEq]
      constructor
      · rintro rfl
        exact .inl ⟨rfl, h⟩
      · rintro (⟨rfl, -⟩ | ⟨hne, -⟩)
        · rfl
        · exact absurd rfl hne
    · simp only [h, if_false, Change.entry, Change.insertNamespace.injEq, Entry.namespaceNamed.injEq,
        ne_eq, not_false_eq_true, true_and]
      constructor
      · exact .inr
      · rintro (⟨rfl, hname⟩ | hd)
        · exact absurd hname h
        · exact hd
  | removeNamespace removed => by_cases h : removed = name <;> simp [Change.entry, h]
  | insertBinding b => simp [Change.entry]
  | removeBinding key => simp [Change.entry]

/-- Each change may put the record or take it away, so what counts is the last that did either. -/
theorem namespaces_foldl_apply_eq_some_iff :
    (changes.foldl apply d).namespaces[name]? = some n ↔ PutLast changes name n ∨
      d.namespaces[name]? = some n ∧
        ∀ change ∈ changes, change.entry ≠ .namespaceNamed name := by
  induction changes generalizing d with
  | nil => simp [not_putLast_nil]
  | cons change changes ih =>
    rw [List.foldl_cons, ih, namespaces_apply_eq_some_iff, putLast_cons, List.forall_mem_cons]
    tauto

theorem findNamespace_foldl_apply_iff :
    (changes.foldl apply empty).findNamespace name = some n ↔ PutLast changes name n := by
  rw [findNamespace, namespaces_foldl_apply_eq_some_iff]
  simp [Directory.empty]

end puts

/-- What the directory holds once these changes have been made to an empty one, and what its lookups
find there. -/
structure HoldsAfter (changes : List Change) (d : Directory) : Prop where
  binding_valid : ∀ key (b : RoleBinding), d.bindings[key]? = some b →
    b.error? = none ∧ key = BindingKey.mk b.namespaceName b.name
  namespace_named : ∀ name (n : Namespace), d.namespaces[name]? = some n → n.name = name
  mem_findBindings : ∀ groups b, b ∈ d.findBindings groups ↔
    d.Stores b ∧ b.subject.kind = .group ∧ b.subject.name ∈ groups
  findBindings_nodup : ∀ groups, (d.findBindings groups).Nodup
  findBindings_sorted : ∀ groups, (d.findBindings groups).Pairwise fun a b => a.key.Before b.key
  findNamespace_eq : ∀ name n, d.findNamespace name = some n ↔ PutLast changes name n

theorem holdsAfter_foldl_apply (changes : List Change) :
    HoldsAfter changes (changes.foldl apply empty) where
  binding_valid key b hb :=
    have hstored := (Reachable.empty.foldl changes).stored hb
    ⟨hstored.1, hstored.2.symm⟩
  namespace_named name n hn := by
    obtain ⟨_, _, -, hname, -⟩ := findNamespace_foldl_apply_iff.mp hn
    exact hname
  mem_findBindings groups b := mem_findBindings_iff
  findBindings_nodup groups := (Reachable.empty.foldl changes).nodup_findBindings
  findBindings_sorted groups := (Reachable.empty.foldl changes).pairwise_findBindings
  findNamespace_eq name n := findNamespace_foldl_apply_iff

/-- What changes return, what they make of their own entry, and that they go no further. -/
structure ChangedByEntry (d : Directory) : Prop where
  insertBinding_refused : ∀ b error, b.error? = some error →
    d.reply (.change (.insertBinding b)) = .refused error ∧ d.apply (.insertBinding b) = d
  insertBinding_done : ∀ b, b.error? = none → d.reply (.change (.insertBinding b)) = .done ∧
    (d.apply (.insertBinding b)).bindings[b.key]? = some b
  insertNamespace_done : ∀ n, d.reply (.change (.insertNamespace n)) = .done ∧
    (d.apply (.insertNamespace n)).namespaces[n.name]? = some n
  removeBinding_returns : ∀ key,
    d.reply (.change (.removeBinding key)) = .bindingRemoved d.bindings[key]? ∧
      (d.apply (.removeBinding key)).bindings[key]? = none
  removeNamespace_returns : ∀ name,
    d.reply (.change (.removeNamespace name)) = .namespaceRemoved d.namespaces[name]? ∧
      (d.apply (.removeNamespace name)).namespaces[name]? = none
  others_stay : ∀ change entry, change.entry ≠ entry →
    (d.apply change).stored? entry = d.stored? entry
  commute : ∀ change other, change.entry ≠ other.entry →
    (d.apply change).apply other = (d.apply other).apply change ∧
      (d.apply change).reply (.change other) = d.reply (.change other) ∧
      (d.apply other).reply (.change change) = d.reply (.change change)

theorem changedByEntry (d : Directory) : d.ChangedByEntry where
  insertBinding_refused b error h := by
    rw [reply_insertBinding, h]
    exact ⟨rfl, apply_of_refused h⟩
  insertBinding_done b h := by
    rw [reply_insertBinding, h, bindings_apply]
    exact ⟨rfl, if_pos ⟨h, rfl⟩⟩
  insertNamespace_done n := by
    rw [namespaces_apply]
    exact ⟨rfl, if_pos rfl⟩
  removeBinding_returns key := by
    rw [bindings_apply]
    exact ⟨rfl, if_pos rfl⟩
  removeNamespace_returns name := by
    rw [namespaces_apply]
    exact ⟨rfl, if_pos rfl⟩
  others_stay change entry := stored?_apply_of_ne
  commute change other h :=
    ⟨apply_apply_comm h, reply_apply_of_ne h, reply_apply_of_ne h.symm⟩

/-- Whatever changes have led to it, a directory holds valid bindings and namespaces under their own
keys, finds exactly what it holds, and is changed one entry at a time. -/
theorem storage_laws (changes : List Change) :
    HoldsAfter changes (changes.foldl apply empty) ∧ (changes.foldl apply empty).ChangedByEntry :=
  ⟨holdsAfter_foldl_apply changes, changedByEntry _⟩

section sample

def sampleChanges : List Change :=
  [.insertNamespace ⟨"team", "c"⟩,
    .insertBinding (sampleBinding "team" "topics" {.get}),
    .insertBinding (sampleBinding "other" "schemas" {.get}),
    .insertBinding (sampleBinding "team" "connectors/restart" {.put}),
    .insertNamespace ⟨"team", "d"⟩,
    .removeBinding ⟨"other", "devs"⟩]

theorem storage_laws_refused_replacement :
    let d := sampleChanges.foldl apply empty
    let stored := sampleBinding "team" "connectors/restart" {.put}
    let refused := sampleBinding "team" "namespaces" {.put}
    (d.bindings[stored.key]? = some stored ∧ stored.error? = none) ∧
    (d.bindings[refused.key]? = some stored ∧
      d.reply (.change (.insertBinding refused)) = .refused (.notNamespaced "namespaces") ∧
      d.apply (.insertBinding refused) = d) ∧
    d.findNamespace "team" = some ⟨"team", "d"⟩ ∧
    (d.apply (.removeNamespace "team")).apply (.removeBinding stored.key) =
      (d.apply (.removeBinding stored.key)).apply (.removeNamespace "team") := by
  intro d stored refused
  obtain ⟨hholds, hchanged⟩ := storage_laws sampleChanges
  have hkey : d.bindings[stored.key]? = some stored := by decide +kernel
  have hlast : PutLast sampleChanges "team" ⟨"team", "d"⟩ :=
    ⟨sampleChanges.take 4, [.removeBinding ⟨"other", "devs"⟩], rfl, rfl, by decide +kernel⟩
  exact ⟨⟨hkey, (hholds.binding_valid _ _ hkey).1⟩,
    ⟨hkey, hchanged.insertBinding_refused refused _ (by decide +kernel)⟩,
    (hholds.findNamespace_eq _ _).mpr hlast, (hchanged.commute _ _ (by decide +kernel)).1⟩

end sample

end Directory

end NamespaceAccess
