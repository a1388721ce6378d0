import NamespaceAccess.Catalog
import Mathlib.Data.List.Find
import Mathlib.Data.List.Forall2
import Mathlib.Data.List.Nodup

/-!
The names that entries of the catalog answer to. No two entries share one, not even when the case
of letters is disregarded in paths and aliases as it is in kinds. So it makes no difference which
entry a search meets first, or what it looks at first.
-/
namespace NamespaceAccess

def SameButCase (c d : Char) : Prop :=
  c = d ∨ (('A' ≤ c ∧ c ≤ 'Z') ∧ d.toNat = c.toNat + 32) ∨
    (('A' ≤ d ∧ d ≤ 'Z') ∧ c.toNat = d.toNat + 32)

def SpelledAlike (s t : String) : Prop := List.Forall₂ SameButCase s.toList t.toList

def lowerCased (s : String) : List Char := s.toList.map Char.toLower

theorem isCapital_iff {c : Char} : ('A' ≤ c ∧ c ≤ 'Z') ↔ 65 ≤ c.toNat ∧ c.toNat ≤ 90 :=
  Iff.rfl

theorem toNat_toLower (c : Char) :
    c.toLower.toNat = if 65 ≤ c.toNat ∧ c.toNat ≤ 90 then c.toNat + 32 else c.toNat := by
  unfold Char.toLower
  split
  next h =>
    have hcapital : 65 ≤ c.toNat ∧ c.toNat ≤ 90 := h
    have hsum : (c.val + 32).toNat = (c.toNat + 32) % 2 ^ 32 := UInt32.toNat_add _ _
    rw [if_pos hcapital, ← Nat.mod_eq_of_lt (show c.toNat + 32 < 2 ^ 32 by omega)]
    exact hsum
  next h => exact (if_neg (show ¬ (65 ≤ c.toNat ∧ c.toNat ≤ 90) from h)).symm

theorem toLower_eq_toLower_iff {c d : Char} : c.toLower = d.toLower ↔ SameButCase c d := by
  rw [SameButCase, isCapital_iff, isCapital_iff, ← Char.toNat_inj, ← Char.toNat_inj, toNat_toLower,
    toNat_toLower]
  split <;> split <;> omega

theorem lowerCased_eq_iff {s t : String} : lowerCased s = lowerCased t ↔ SpelledAlike s t := by
  rw [lowerCased, lowerCased, ← List.forall₂_eq_eq_eq, List.forall₂_map_left_iff,
    List.forall₂_map_right_iff, SpelledAlike]
  simp only [toLower_eq_toLower_iff]

theorem equalsIgnoringAsciiCase_iff {s t : String} :
    equalsIgnoringAsciiCase s t ↔ SpelledAlike s t := by
  rw [← lowerCased_eq_iff, equalsIgnoringAsciiCase, beq_iff_eq, lowerCased, lowerCased]

namespace ResourceDefinition

variable {entry : ResourceDefinition} {name : String}

/-- What an entry may be called: its path, an alias, or its kind in any mix of cases. -/
inductive HasName (entry : ResourceDefinition) : String → Prop where
  | ofPath : HasName entry entry.path
  | ofAlias {name : String} (h : name ∈ entry.names) : HasName entry name
  | ofKind {name : String} (h : SpelledAlike entry.kind name) : HasName entry name

theorem answersTo_iff : entry.answersTo name ↔ entry.HasName name := by
  simp only [answersTo, Bool.or_eq_true, beq_iff_eq, List.contains_iff_mem,
    equalsIgnoringAsciiCase_iff]
  constructor
  · rintro ((rfl | h) | h)
    · exact .ofPath
    · exact .ofAlias h
    · exact .ofKind h
  · intro h
    cases h with
    | ofPath => exact .inl (.inl rfl)
    | ofAlias h => exact .inl (.inr h)
    | ofKind h => exact .inr h

def keys (entry : ResourceDefinition) : List (List Char) :=
  (entry.kind :: entry.path :: entry.names).map lowerCased

theorem HasName.lowerCased_mem_keys (h : entry.HasName name) : lowerCased name ∈ entry.keys := by
  cases h with
  | ofPath => simp [keys]
  | ofAlias h => exact List.mem_map_of_mem (List.mem_cons_of_mem _ (List.mem_cons_of_mem _ h))
  | ofKind h => simp [keys, lowerCased_eq_iff.mpr h]

end ResourceDefinition

namespace Catalog

variable {entry other : ResourceDefinition} {name : String} {table : List ResourceDefinition}

def scan (table : List ResourceDefinition) (name : String) : Option ResourceDefinition :=
  table.find? fun entry => entry.answersTo name

/-- The entries are told apart by any one of their keys. There are finitely many keys, whereas a
kind has a great many spellings. -/
theorem eq_of_mem_keys (hentry : entry ∈ all) (hother : other ∈ all) {key : List Char}
    (h : key ∈ entry.keys) (h' : key ∈ other.keys) : entry = other := by
  revert key
  revert other
  revert entry
  decide +kernel

theorem eq_of_hasName (hentry : entry ∈ all) (hother : other ∈ all) (h : entry.HasName name)
    (h' : other.HasName name) : entry = other :=
  eq_of_mem_keys hentry hother h.lowerCased_mem_keys h'.lowerCased_mem_keys

theorem subsingleton_answersTo (name : String) :
    {entry ∈ all | entry.answersTo name}.Subsingleton := by
  rintro entry ⟨hentry, h⟩ other ⟨hother, h'⟩
  exact eq_of_hasName hentry hother (ResourceDefinition.answersTo_iff.mp h)
    (ResourceDefinition.answersTo_iff.mp h')

theorem scan_of_perm (h : table.Perm all) : scan table name = scan all name :=
  (List.find?_eq_find?_of_perm h.symm (subsingleton_answersTo name)).symm

theorem scan_all_eq_some_iff : scan all name = some entry ↔ entry ∈ all ∧ entry.answersTo name := by
  constructor
  · intro h
    exact ⟨List.mem_of_find?_eq_some h, by simpa using List.find?_some h⟩
  · intro h
    cases hscan : scan all name with
    | none => exact absurd h.2 (by simpa using List.find?_eq_none.mp hscan entry h.1)
    | some other =>
      have hother : other.answersTo name := by simpa using List.find?_some hscan
      rw [subsingleton_answersTo name h ⟨List.mem_of_find?_eq_some hscan, hother⟩]

theorem answersTo_of_find? (h : find? name = some entry) : entry.answersTo name := by
  obtain ⟨-, rfl⟩ := find?_some h
  exact ResourceDefinition.answersTo_iff.mpr .ofPath

/-- Looking among the paths first makes no difference: an entry found there answers to the name, so
a search among all names finds the same. -/
theorem resolve_eq_scan : resolve name = scan all name := by
  unfold resolve
  cases hfind : find? name with
  | none => rfl
  | some entry =>
    exact (scan_all_eq_some_iff.mpr ⟨(find?_some hfind).1, answersTo_of_find? hfind⟩).symm

theorem resolve_eq_some_iff : resolve name = some entry ↔ entry ∈ all ∧ entry.answersTo name := by
  rw [resolve_eq_scan, scan_all_eq_some_iff]

theorem resolve_eq_none_iff : resolve name = none ↔ ∀ entry ∈ all, ¬ entry.answersTo name := by
  rw [resolve_eq_scan, scan, List.find?_eq_none]

/-- The Kelvin sign is no letter of ASCII, so it is not the letter it looks like. -/
example : resolve "\u212AafkaStream" = none := by decide

theorem resolve_of_find? (h : find? name = some entry) : resolve name = some entry :=
  resolve_eq_some_iff.mpr ⟨(find?_some h).1, answersTo_of_find? h⟩

theorem answering_eq_toList (name : String) : answering name = (resolve name).toList := by
  have hnodup : (answering name).Nodup := nodup_all.filter _
  have hmem : ∀ entry, entry ∈ answering name ↔ resolve name = some entry := by
    simp [answering, resolve_eq_some_iff]
  cases hresolve : resolve name with
  | none => simpa [hresolve, List.eq_nil_iff_forall_not_mem] using hmem
  | some entry =>
    have hperm : (answering name).Perm [entry] :=
      (List.perm_ext_iff_of_nodup hnodup (List.nodup_singleton entry)).mpr
        (by simpa [hresolve, eq_comm] using hmem)
    exact List.perm_singleton.mp hperm

/-- Whatever a name is, one entry at most has it. That entry is the one that the name resolves to,
in whichever order the table is searched. -/
theorem names_unambiguous (name : String) :
    (∀ entry : ResourceDefinition, entry.answersTo name ↔ entry.HasName name) ∧
      {entry ∈ all | entry.answersTo name}.Subsingleton ∧
      answering name = (resolve name).toList ∧
      (∀ entry, resolve name = some entry ↔ entry ∈ all ∧ entry.answersTo name) ∧
      (resolve name = none ↔ ∀ entry ∈ all, ¬ entry.answersTo name) ∧
      (∀ entry, find? name = some entry → resolve name = some entry) ∧
      (∀ table, table.Perm all → resolve name = scan table name) ∧
      ∀ entry ∈ all, ∀ other ∈ all, entry ≠ other → SpelledAlike entry.kind name →
        name ≠ other.path ∧ name ∉ other.names := by
  refine ⟨fun _ => ResourceDefinition.answersTo_iff, subsingleton_answersTo name,
    answering_eq_toList name, fun _ => resolve_eq_some_iff, resolve_eq_none_iff,
    fun _ => resolve_of_find?, fun _ htable => resolve_eq_scan.trans (scan_of_perm htable).symm, ?_⟩
  intro entry hentry other hother hne hkind
  have hshared : ¬ other.HasName name := fun h =>
    hne (eq_of_hasName hentry hother (.ofKind hkind) h)
  exact ⟨fun h => hshared (h ▸ .ofPath), fun h => hshared (.ofAlias h)⟩

/-- A kind in mixed case, beside an entry with an alias that the kind begins with, in the table
read from its end; and a path. -/
theorem names_unambiguous_mixedCase :
    SpelledAlike connectCluster.kind "connectCLUSTER" ∧
      answering "connectCLUSTER" = [connectCluster] ∧
      scan all.reverse "connectCLUSTER" = some connectCluster ∧
      ("connectCLUSTER" ≠ connector.path ∧ "connectCLUSTER" ∉ connector.names) ∧
      find? "schemas" = some schema ∧ resolve "schemas" = some schema := by
  have hspelled : SpelledAlike connectCluster.kind "connectCLUSTER" :=
    lowerCased_eq_iff.mp (by decide)
  have hfind : find? "schemas" = some schema := by decide
  obtain ⟨hnames, -, hanswering, hresolve, -, -, hscan, hapart⟩ :=
    names_unambiguous "connectCLUSTER"
  obtain ⟨-, -, -, -, -, hfound, -, -⟩ := names_unambiguous "schemas"
  have hresolved : resolve "connectCLUSTER" = some connectCluster :=
    (hresolve connectCluster).mpr ⟨by decide, (hnames connectCluster).mpr (.ofKind hspelled)⟩
  refine ⟨hspelled, ?_, ?_, ?_, hfind, hfound schema hfind⟩
  · rw [hanswering, hresolved]
    rfl
  · rw [← hscan all.reverse (List.reverse_perm all), hresolved]
  · exact hapart connectCluster (by decide) connector (by decide) (by decide) hspelled

end Catalog

end NamespaceAccess
