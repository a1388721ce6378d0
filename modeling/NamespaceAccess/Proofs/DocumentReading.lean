import NamespaceAccess.Settings.Toml
import Mathlib.Data.List.Nodup

/-!
Which documents hold settings. A table of settings has the declared keys and no others, those
without a default among them, and each has a value of its type.
-/
namespace NamespaceAccess

namespace Toml.Node

/-- Whether the value may stand for a record with these fields. A table must have no other keys; an
array gives its items to the fields in their order. -/
def IsRecord (names : List String) : Node → Prop
  | table _ entries => ∀ key n, (key, n) ∈ entries → key ∈ names
  | array _ | tables _ => True
  | text _ | boolean _ | scalar => False

def given? (names : List String) (name : String) : Node → Option Node
  | table _ entries => Entries.find? entries name
  | array items => items[names.idxOf name]?
  | tables elements => elements[names.idxOf name]?.map (table .declared)
  | text _ | boolean _ | scalar => none

variable {names : List String} {n : Node}

theorem position?_eq_map (hnames : names.Nodup) (items : List Node) :
    position? names items = names.map fun name => items[names.idxOf name]? := by
  apply List.ext_getElem
  · simp [position?]
  · intro i h h'
    simp only [position?, List.getElem_map, List.getElem_range]
    rw [hnames.idxOf_getElem]

theorem fields?_of_isRecord (hnames : names.Nodup) (h : n.IsRecord names) :
    n.fields? names = some (names.map fun name => n.given? names name) := by
  cases n with
  | text _ | boolean _ | scalar => exact h.elim
  | array items => simp [fields?, given?, position?_eq_map hnames]
  | tables elements => simp [fields?, given?, position?_eq_map hnames]
  | table origin entries =>
    simpa [fields?, given?, IsRecord] using h

theorem fields?_of_not_isRecord (h : ¬ n.IsRecord names) : n.fields? names = none := by
  cases n with
  | text _ | boolean _ | scalar => rfl
  | array _ | tables _ => exact absurd trivial h
  | table origin entries => simpa [fields?, IsRecord] using h

theorem text?_eq_some_iff {s : String} : n.text? = some s ↔ n = text s := by
  cases n <;> simp [text?]

theorem boolean?_eq_some_iff {b : Bool} : n.boolean? = some b ↔ n = boolean b := by
  cases n <;> simp [boolean?]

end Toml.Node

namespace Toml

variable {α : Type} {given : Option Node} {means : Node → α → Prop} {default a : α}

/-- What a field is that may be left out: what the value given for it says, or its default. -/
inductive Field (given : Option Node) (means : Node → α → Prop) (default : α) : α → Prop where
  | given {n : Node} {a : α} (h : given = some n) (hmeans : means n a) : Field given means default a
  | missing (h : given = none) : Field given means default default

theorem field_iff {read : Node → Option α} (hread : ∀ n a, read n = some a ↔ means n a) :
    given.elim (some default) read = some a ↔ Field given means default a := by
  constructor
  · intro h
    cases hgiven : given with
    | none =>
      obtain rfl : default = a := by simpa [hgiven] using h
      exact .missing rfl
    | some n => exact .given rfl ((hread n a).mp (by simpa [hgiven] using h))
  · rintro (⟨rfl, hmeans⟩ | rfl)
    · exact (hread _ a).mpr hmeans
    · rfl

theorem Field.means_of_given {n : Node} (hfield : Field given means default a)
    (h : given = some n) : means n a := by
  cases hfield with
  | given hgiven hmeans =>
    obtain rfl := Option.some.inj (hgiven.symm.trans h)
    exact hmeans
  | missing hmissing => simp [hmissing] at h

/-- Only a value that says nothing leaves a field without a meaning. -/
theorem exists_field (h : ∀ n, given = some n → ∃ a, means n a) :
    ∃ a, Field given means default a := by
  cases hgiven : given with
  | none => exact ⟨default, .missing rfl⟩
  | some n =>
    obtain ⟨a, ha⟩ := h n hgiven
    exact ⟨a, .given rfl ha⟩

end Toml

theorem SinkKind.ofLabel?_eq_some_iff {label : String} {k : SinkKind} :
    ofLabel? label = some k ↔ label = k.label := by
  constructor
  · intro h
    unfold ofLabel? at h
    split at h <;> cases h <;> rfl
  · rintro rfl
    exact ofLabel?_label k

namespace SecuritySettings

def fieldNames : List String := ["admin_group", "enforce_verbs"]

/-- The value says what the settings are. Verbs are not enforced unless it says so. -/
structure ReadFrom (n : Toml.Node) (s : SecuritySettings) : Prop where
  record : n.IsRecord fieldNames
  adminGroup : n.given? fieldNames "admin_group" = some (.text s.adminGroup)
  enforceVerbs : Toml.Field (n.given? fieldNames "enforce_verbs") (fun n b => n = .boolean b) false
    s.enforceVerbs

inductive Misfit (n : Toml.Node) : Prop where
  | record (h : ¬ n.IsRecord fieldNames)
  | adminGroup (h : ∀ text, n.given? fieldNames "admin_group" ≠ some (.text text))
  | enforceVerbs {given : Toml.Node} (h : n.given? fieldNames "enforce_verbs" = some given)
    (htype : ∀ b, given ≠ .boolean b)

variable {n : Toml.Node} {s : SecuritySettings}

theorem ofNode?_of_isRecord (h : n.IsRecord fieldNames) :
    ofNode? n = (n.given? fieldNames "admin_group").bind fun adminGroup =>
      adminGroup.text?.bind fun adminGroup =>
        ((n.given? fieldNames "enforce_verbs").elim (some false) (·.boolean?)).bind
          fun enforceVerbs => some ⟨adminGroup, enforceVerbs⟩ := by
  have hfields := Toml.Node.fields?_of_isRecord (by decide) h
  simp only [fieldNames, List.map_cons, List.map_nil] at hfields
  simp only [ofNode?, hfields]
  rfl

theorem ofNode?_of_not_isRecord (h : ¬ n.IsRecord fieldNames) : ofNode? n = none := by
  have hfields := Toml.Node.fields?_of_not_isRecord h
  simp only [fieldNames] at hfields
  simp [ofNode?, hfields]

theorem ofNode?_eq_some_iff : ofNode? n = some s ↔ ReadFrom n s := by
  by_cases hrecord : n.IsRecord fieldNames
  case neg =>
    rw [ofNode?_of_not_isRecord hrecord]
    exact iff_of_false (by simp) fun h => hrecord h.record
  case pos =>
    rw [ofNode?_of_isRecord hrecord]
    simp only [Option.bind_eq_some_iff, Toml.Node.text?_eq_some_iff,
      Toml.field_iff fun n b => Toml.Node.boolean?_eq_some_iff (n := n) (b := b)]
    constructor
    · rintro ⟨_, hadmin, adminGroup, rfl, enforceVerbs, hverbs, h⟩
      cases h
      exact ⟨hrecord, hadmin, hverbs⟩
    · rintro ⟨-, hadmin, hverbs⟩
      exact ⟨_, hadmin, s.adminGroup, rfl, s.enforceVerbs, hverbs, rfl⟩

/-- A value that is not amiss in any of these ways holds settings. -/
theorem misfit_iff : Misfit n ↔ ∀ s, ¬ ReadFrom n s := by
  constructor
  · rintro (h | h | ⟨h, htype⟩) s hs
    · exact h hs.record
    · exact h _ hs.adminGroup
    · exact htype _ (hs.enforceVerbs.means_of_given h)
  · intro h
    by_contra hfit
    have hrecord : n.IsRecord fieldNames := by
      by_contra hrecord
      exact hfit (.record hrecord)
    obtain ⟨adminGroup, hadmin⟩ :
        ∃ text, n.given? fieldNames "admin_group" = some (.text text) := by
      by_contra hadmin
      exact hfit (.adminGroup (by simpa using hadmin))
    obtain ⟨enforceVerbs, hverbs⟩ : ∃ b, Toml.Field (n.given? fieldNames "enforce_verbs")
        (fun n b => n = .boolean b) false b := by
      refine Toml.exists_field fun given hgiven => ?_
      by_contra htype
      exact hfit (.enforceVerbs hgiven (by simpa using htype))
    exact h ⟨adminGroup, enforceVerbs⟩ ⟨hrecord, hadmin, hverbs⟩

end SecuritySettings

namespace AuditSettings

def fieldNames : List String := ["sink", "path"]

/-- The value says what the settings are. What it leaves out is as in `default`. -/
structure ReadFrom (n : Toml.Node) (s : AuditSettings) : Prop where
  record : n.IsRecord fieldNames
  sink : Toml.Field (n.given? fieldNames "sink") (fun n k => n.variant? = some k.label)
    default.sink s.sink
  path : Toml.Field (n.given? fieldNames "path") (fun n p => ∃ text, n = .text text ∧ p = some text)
    default.path s.path

inductive Misfit (n : Toml.Node) : Prop where
  | record (h : ¬ n.IsRecord fieldNames)
  | sink {given : Toml.Node} (h : n.given? fieldNames "sink" = some given)
    (hkind : ∀ k : SinkKind, given.variant? ≠ some k.label)
  | path {given : Toml.Node} (h : n.given? fieldNames "path" = some given)
    (htype : ∀ text, given ≠ .text text)

variable {n : Toml.Node} {s : AuditSettings}

theorem ofNode?_of_isRecord (h : n.IsRecord fieldNames) :
    ofNode? n = ((n.given? fieldNames "sink").elim (some .none)
        fun s => s.variant?.bind SinkKind.ofLabel?).bind fun sink =>
      ((n.given? fieldNames "path").elim (some none) fun p => p.text?.map some).bind fun path =>
        some ⟨sink, path⟩ := by
  have hfields := Toml.Node.fields?_of_isRecord (by decide) h
  simp only [fieldNames, List.map_cons, List.map_nil] at hfields
  simp only [ofNode?, hfields]
  rfl

theorem ofNode?_of_not_isRecord (h : ¬ n.IsRecord fieldNames) : ofNode? n = none := by
  have hfields := Toml.Node.fields?_of_not_isRecord h
  simp only [fieldNames] at hfields
  simp [ofNode?, hfields]

theorem kind_eq_some_iff (n : Toml.Node) (k : SinkKind) :
    n.variant?.bind SinkKind.ofLabel? = some k ↔ n.variant? = some k.label := by
  simp [Option.bind_eq_some_iff, SinkKind.ofLabel?_eq_some_iff]

theorem filePath_eq_some_iff (n : Toml.Node) (p : Option String) :
    n.text?.map some = some p ↔ ∃ text, n = .text text ∧ p = some text := by
  simp [Option.map_eq_some_iff, Toml.Node.text?_eq_some_iff, eq_comm (a := p)]

theorem ofNode?_eq_some_iff : ofNode? n = some s ↔ ReadFrom n s := by
  by_cases hrecord : n.IsRecord fieldNames
  case neg =>
    rw [ofNode?_of_not_isRecord hrecord]
    exact iff_of_false (by simp) fun h => hrecord h.record
  case pos =>
    rw [ofNode?_of_isRecord hrecord]
    simp only [Option.bind_eq_some_iff, Toml.field_iff kind_eq_some_iff,
      Toml.field_iff filePath_eq_some_iff]
    constructor
    · rintro ⟨sink, hsink, path, hpath, h⟩
      cases h
      exact ⟨hrecord, hsink, hpath⟩
    · rintro ⟨-, hsink, hpath⟩
      exact ⟨s.sink, hsink, s.path, hpath, rfl⟩

theorem misfit_iff : Misfit n ↔ ∀ s, ¬ ReadFrom n s := by
  constructor
  · rintro (h | ⟨h, hkind⟩ | ⟨h, htype⟩) s hs
    · exact h hs.record
    · exact hkind _ (hs.sink.means_of_given h)
    · obtain ⟨text, htext, -⟩ := hs.path.means_of_given h
      exact htype text htext
  · intro h
    by_contra hfit
    have hrecord : n.IsRecord fieldNames := by
      by_contra hrecord
      exact hfit (.record hrecord)
    obtain ⟨sink, hsink⟩ : ∃ k, Toml.Field (n.given? fieldNames "sink")
        (fun n k => n.variant? = some k.label) default.sink k := by
      refine Toml.exists_field fun given hgiven => ?_
      by_contra hkind
      exact hfit (.sink hgiven (by simpa using hkind))
    obtain ⟨path, hpath⟩ : ∃ p, Toml.Field (n.given? fieldNames "path")
        (fun n p => ∃ text, n = .text text ∧ p = some text) default.path p := by
      refine Toml.exists_field fun given hgiven => ?_
      by_contra htype
      exact hfit (.path hgiven fun text htext => htype ⟨some text, text, htext, rfl⟩)
    exact h ⟨sink, path⟩ ⟨hrecord, hsink, hpath⟩

end AuditSettings

namespace Settings

def fieldNames : List String := ["security", "audit"]

/-- The value says what the settings are. The audit section may be left out as a whole. -/
structure ReadFrom (n : Toml.Node) (s : Settings) : Prop where
  record : n.IsRecord fieldNames
  security : ∃ given, n.given? fieldNames "security" = some given ∧
    SecuritySettings.ReadFrom given s.security
  audit : Toml.Field (n.given? fieldNames "audit") AuditSettings.ReadFrom .default s.audit

inductive Misfit (n : Toml.Node) : Prop where
  | record (h : ¬ n.IsRecord fieldNames)
  | securityMissing (h : n.given? fieldNames "security" = none)
  | security {given : Toml.Node} (h : n.given? fieldNames "security" = some given)
    (hmisfit : SecuritySettings.Misfit given)
  | audit {given : Toml.Node} (h : n.given? fieldNames "audit" = some given)
    (hmisfit : AuditSettings.Misfit given)

variable {n : Toml.Node} {s : Settings}

theorem ofNode?_of_isRecord (h : n.IsRecord fieldNames) :
    ofNode? n = (n.given? fieldNames "security").bind fun security =>
      (SecuritySettings.ofNode? security).bind fun security =>
        ((n.given? fieldNames "audit").elim (some .default) AuditSettings.ofNode?).bind fun audit =>
          some ⟨security, audit⟩ := by
  have hfields := Toml.Node.fields?_of_isRecord (by decide) h
  simp only [fieldNames, List.map_cons, List.map_nil] at hfields
  simp only [ofNode?, hfields]
  rfl

theorem ofNode?_of_not_isRecord (h : ¬ n.IsRecord fieldNames) : ofNode? n = none := by
  have hfields := Toml.Node.fields?_of_not_isRecord h
  simp only [fieldNames] at hfields
  simp [ofNode?, hfields]

theorem ofNode?_eq_some_iff : ofNode? n = some s ↔ ReadFrom n s := by
  by_cases hrecord : n.IsRecord fieldNames
  case neg =>
    rw [ofNode?_of_not_isRecord hrecord]
    exact iff_of_false (by simp) fun h => hrecord h.record
  case pos =>
    rw [ofNode?_of_isRecord hrecord]
    simp only [Option.bind_eq_some_iff, SecuritySettings.ofNode?_eq_some_iff,
      Toml.field_iff fun n a => AuditSettings.ofNode?_eq_some_iff (n := n) (s := a)]
    constructor
    · rintro ⟨given, hgiven, security, hsecurity, audit, haudit, h⟩
      cases h
      exact ⟨hrecord, ⟨given, hgiven, hsecurity⟩, haudit⟩
    · rintro ⟨-, ⟨given, hgiven, hsecurity⟩, haudit⟩
      exact ⟨given, hgiven, s.security, hsecurity, s.audit, haudit, rfl⟩

theorem misfit_iff : Misfit n ↔ ∀ s, ¬ ReadFrom n s := by
  constructor
  · rintro (h | h | ⟨h, hmisfit⟩ | ⟨h, hmisfit⟩) s hs
    · exact h hs.record
    · obtain ⟨given, hgiven, -⟩ := hs.security
      simp [hgiven] at h
    · obtain ⟨given, hgiven, hsecurity⟩ := hs.security
      obtain rfl := Option.some.inj (h.symm.trans hgiven)
      exact SecuritySettings.misfit_iff.mp hmisfit _ hsecurity
    · exact AuditSettings.misfit_iff.mp hmisfit _ (hs.audit.means_of_given h)
  · intro h
    by_contra hfit
    have hrecord : n.IsRecord fieldNames := by
      by_contra hrecord
      exact hfit (.record hrecord)
    obtain ⟨given, hgiven⟩ : ∃ given, n.given? fieldNames "security" = some given := by
      by_contra hgiven
      exact hfit (.securityMissing (by simpa [← Option.eq_none_iff_forall_ne_some] using hgiven))
    obtain ⟨security, hsecurity⟩ : ∃ s, SecuritySettings.ReadFrom given s := by
      by_contra hsecurity
      exact hfit (.security hgiven (SecuritySettings.misfit_iff.mpr (by simpa using hsecurity)))
    obtain ⟨audit, haudit⟩ : ∃ s,
        Toml.Field (n.given? fieldNames "audit") AuditSettings.ReadFrom .default s := by
      refine Toml.exists_field fun given hgiven => ?_
      by_contra haudit
      exact hfit (.audit hgiven (AuditSettings.misfit_iff.mpr (by simpa using haudit)))
    exact h ⟨security, audit⟩ ⟨hrecord, ⟨given, hgiven, hsecurity⟩, haudit⟩

end Settings

end NamespaceAccess
