import NamespaceAccess.GrantSet

/-!
What a grant set holds, read off the bindings it was built from. The loops over bindings and over
tokens each keep two facts: which tokens are present, and which verbs each of them has.
-/
namespace NamespaceAccess
namespace RoleBinding

/-- A binding speaks in its own namespace only, and for one group only. -/
def Applies (b : RoleBinding) (namespaceName : String) (groups : GroupSet) : Prop :=
  b.namespaceName = namespaceName ∧ b.subject.kind = .group ∧ b.subject.name ∈ groups

/-- One binding that applies has to list the token and, when a verb is required, that verb too. -/
def Grants (b : RoleBinding) (namespaceName : String) (groups : GroupSet) (token : String)
    (verb : Option Verb) : Prop :=
  b.Applies namespaceName groups ∧ token ∈ b.role.resourceTypes ∧ ∀ v ∈ verb, v ∈ b.role.verbs

theorem appliesTo_eq_true_iff {b : RoleBinding} {namespaceName : String} {groups : GroupSet} :
    b.appliesTo namespaceName groups = true ↔ b.Applies namespaceName groups := appliesTo_iff

instance (b : RoleBinding) (namespaceName : String) (groups : GroupSet) :
    Decidable (b.Applies namespaceName groups) := decidable_of_iff _ appliesTo_eq_true_iff

instance (b : RoleBinding) (namespaceName : String) (groups : GroupSet) (token : String)
    (verb : Option Verb) : Decidable (b.Grants namespaceName groups token verb) :=
  inferInstanceAs (Decidable (_ ∧ _ ∧ _))

theorem Grants.without_verb {b : RoleBinding} {namespaceName token : String} {groups : GroupSet}
    {verb : Option Verb} (h : b.Grants namespaceName groups token verb) :
    b.Grants namespaceName groups token none :=
  ⟨h.1, h.2.1, by simp⟩

end RoleBinding

namespace GrantSet

def verbsOf (g : GrantSet) (token : String) : VerbSet := g.verbs.getD token ∅

section tokens

variable {allowed : VerbSet} {verbs : Std.ExtTreeMap String VerbSet} {t : String} {v : Verb}

theorem mem_getD_addToken {token : String} :
    v ∈ (addToken allowed verbs token).getD t ∅ ↔
      (t = token ∧ v ∈ allowed) ∨ v ∈ verbs.getD t ∅ := by
  rw [addToken, Std.ExtTreeMap.getD_insert]
  by_cases h : t = token
  · subst h
    simp [Std.ExtTreeSet.mem_union_iff, or_comm]
  · have hne : compare token t ≠ .eq := by
      simpa [Std.LawfulEqCmp.compare_eq_iff_eq] using Ne.symm h
    simp [hne, h]

theorem mem_foldl_addToken {tokens : List String} :
    t ∈ tokens.foldl (addToken allowed) verbs ↔ t ∈ tokens ∨ t ∈ verbs := by
  induction tokens generalizing verbs with
  | nil => simp
  | cons token tokens ih =>
    rw [List.foldl_cons, ih, mem_addToken, List.mem_cons, ← or_assoc, or_comm (b := t = token)]

/-- Verbs that a token had before stay, and every listed token gains all the verbs of the role. -/
theorem mem_getD_foldl_addToken {tokens : List String} :
    v ∈ (tokens.foldl (addToken allowed) verbs).getD t ∅ ↔
      (t ∈ tokens ∧ v ∈ allowed) ∨ v ∈ verbs.getD t ∅ := by
  induction tokens generalizing verbs with
  | nil => simp
  | cons token tokens ih =>
    rw [List.foldl_cons, ih, mem_getD_addToken, List.mem_cons, or_and_right, or_left_comm, or_assoc]

end tokens

section bindings

variable {g : GrantSet} {namespaceName : String} {groups : GroupSet} {bindings : List RoleBinding}
  {t : String} {v : Verb}

theorem bound_foldl_addRole :
    (bindings.foldl (fun g b => g.addRole b.role) g).bound = (g.bound || !bindings.isEmpty) := by
  induction bindings generalizing g with
  | nil => simp
  | cons b bindings ih =>
    rw [List.foldl_cons, ih]
    simp [addRole]

theorem contains_foldl_addRole :
    (bindings.foldl (fun g b => g.addRole b.role) g).contains t ↔
      (∃ b ∈ bindings, t ∈ b.role.resourceTypes) ∨ g.contains t := by
  induction bindings generalizing g with
  | nil => simp
  | cons b bindings ih =>
    have hb : (g.addRole b.role).contains t ↔ t ∈ b.role.resourceTypes ∨ g.contains t :=
      mem_foldl_addToken
    simp only [List.foldl_cons, ih, hb, List.mem_cons, exists_eq_or_imp]
    rw [or_left_comm, or_assoc]

theorem mem_verbsOf_foldl_addRole :
    v ∈ (bindings.foldl (fun g b => g.addRole b.role) g).verbsOf t ↔
      (∃ b ∈ bindings, t ∈ b.role.resourceTypes ∧ v ∈ b.role.verbs) ∨ v ∈ g.verbsOf t := by
  induction bindings generalizing g with
  | nil => simp
  | cons b bindings ih =>
    have hb : v ∈ (g.addRole b.role).verbsOf t ↔
        (t ∈ b.role.resourceTypes ∧ v ∈ b.role.verbs) ∨ v ∈ g.verbsOf t :=
      mem_getD_foldl_addToken
    simp only [List.foldl_cons, ih, hb, List.mem_cons, exists_eq_or_imp]
    rw [or_left_comm, or_assoc]

/-- A binding that applies counts even when it lists no tokens. -/
theorem isEmpty_build_iff :
    (build namespaceName groups bindings).isEmpty ↔
      ∀ b ∈ bindings, ¬ b.Applies namespaceName groups := by
  simp only [isEmpty, build, bound_foldl_addRole]
  simp [empty, List.isEmpty_iff, List.filter_eq_nil_iff, ← RoleBinding.appliesTo_eq_true_iff]

theorem contains_build_iff :
    (build namespaceName groups bindings).contains t ↔
      ∃ b ∈ bindings, b.Applies namespaceName groups ∧ t ∈ b.role.resourceTypes := by
  rw [build, contains_foldl_addRole]
  simp [empty, contains, List.mem_filter, RoleBinding.appliesTo_eq_true_iff, and_assoc]

theorem mem_verbsOf_build_iff :
    v ∈ (build namespaceName groups bindings).verbsOf t ↔
      ∃ b ∈ bindings, b.Applies namespaceName groups ∧ t ∈ b.role.resourceTypes ∧
        v ∈ b.role.verbs := by
  rw [build, mem_verbsOf_foldl_addRole]
  simp [empty, verbsOf, List.mem_filter, RoleBinding.appliesTo_eq_true_iff, and_assoc]

theorem permits_iff {r : ResourceRequest} {verb : Option Verb} :
    g.permits r verb ↔ g.contains r.grantToken ∧ ∀ v ∈ verb, v ∈ g.verbsOf r.grantToken := by
  unfold permits contains verbsOf
  rw [Std.ExtTreeMap.getD_eq_getD_getElem?, Std.ExtTreeMap.contains_eq_isSome_getElem?]
  cases g.verbs[r.grantToken]? with
  | none => simp
  | some allowed => cases verb <;> simp

/-- The verb and the token come from the same binding. -/
theorem permits_build_iff {r : ResourceRequest} {verb : Option Verb} :
    (build namespaceName groups bindings).permits r verb ↔
      ∃ b ∈ bindings, b.Grants namespaceName groups r.grantToken verb := by
  rw [permits_iff, contains_build_iff]
  cases verb with
  | none => simp [RoleBinding.Grants]
  | some v =>
    simp only [Option.mem_some_iff, forall_eq', mem_verbsOf_build_iff, RoleBinding.Grants]
    constructor
    · exact fun h => h.2
    · rintro ⟨b, hb, happlies, ht, hv⟩
      exact ⟨⟨b, hb, happlies, ht⟩, b, hb, happlies, ht, hv⟩

theorem permits_build_eq_false {r : ResourceRequest} {verb : Option Verb}
    (h : ∀ b ∈ bindings, ¬ b.Grants namespaceName groups r.grantToken verb) :
    (build namespaceName groups bindings).permits r verb = false := by
  rw [Bool.eq_false_iff]
  intro hpermits
  obtain ⟨b, hb, hgrants⟩ := permits_build_iff.mp hpermits
  exact h b hb hgrants

theorem eq_of_same_contents {h : GrantSet} (hbound : g.isEmpty ↔ h.isEmpty)
    (htokens : ∀ t, g.contains t ↔ h.contains t)
    (hverbs : ∀ t v, v ∈ g.verbsOf t ↔ v ∈ h.verbsOf t) : g = h := by
  have hb : g.bound = h.bound := by simpa [isEmpty, Bool.coe_iff_coe] using hbound
  have hm : g.verbs = h.verbs := by
    apply Std.ExtTreeMap.ext_getElem?
    intro t
    have hv : g.verbsOf t = h.verbsOf t := Std.ExtTreeSet.ext_mem (hverbs t)
    have ht := htokens t
    unfold verbsOf at hv
    unfold contains at ht
    rw [Std.ExtTreeMap.getD_eq_getD_getElem?, Std.ExtTreeMap.getD_eq_getD_getElem?] at hv
    rw [Std.ExtTreeMap.contains_eq_isSome_getElem?,
      Std.ExtTreeMap.contains_eq_isSome_getElem?] at ht
    cases hg : g.verbs[t]? <;> cases hh : h.verbs[t]? <;> simp_all
  cases g
  cases h
  simp_all

/-- Order, repetition and bindings that do not apply leave no trace. -/
theorem build_congr {others : List RoleBinding}
    (h : ∀ b : RoleBinding, b.Applies namespaceName groups → (b ∈ bindings ↔ b ∈ others)) :
    build namespaceName groups bindings = build namespaceName groups others := by
  have hex (P : RoleBinding → Prop) :
      (∃ b ∈ bindings, b.Applies namespaceName groups ∧ P b) ↔
        ∃ b ∈ others, b.Applies namespaceName groups ∧ P b := by
    constructor
    · rintro ⟨b, hb, happlies, hP⟩
      exact ⟨b, (h b happlies).mp hb, happlies, hP⟩
    · rintro ⟨b, hb, happlies, hP⟩
      exact ⟨b, (h b happlies).mpr hb, happlies, hP⟩
  apply eq_of_same_contents
  · rw [isEmpty_build_iff, isEmpty_build_iff]
    simpa using not_congr (hex fun _ => True)
  · intro t
    rw [contains_build_iff, contains_build_iff]
    exact hex fun b => t ∈ b.role.resourceTypes
  · intro t v
    rw [mem_verbsOf_build_iff, mem_verbsOf_build_iff]
    exact hex fun b => t ∈ b.role.resourceTypes ∧ v ∈ b.role.verbs

end bindings

/-- A grant set says what the bindings that apply say, and nothing besides. Tokens and verbs of
different bindings never join, and lists with the same bindings that apply build the same set. -/
theorem build_exact (namespaceName : String) (groups : GroupSet) (bindings : List RoleBinding) :
    let g := build namespaceName groups bindings
    (g.isEmpty ↔ ¬ ∃ b ∈ bindings, b.Applies namespaceName groups) ∧
    (∀ t, g.contains t ↔
      ∃ b ∈ bindings, b.Applies namespaceName groups ∧ t ∈ b.role.resourceTypes) ∧
    (∀ t, t ∈ g.tokens ↔
      ∃ b ∈ bindings, b.Applies namespaceName groups ∧ t ∈ b.role.resourceTypes) ∧
    (∀ q : ResourceRequest, g.permits q none ↔
      ∃ b ∈ bindings, b.Applies namespaceName groups ∧ q.grantToken ∈ b.role.resourceTypes) ∧
    (∀ (q : ResourceRequest) (v : Verb), g.permits q (some v) ↔
      ∃ b ∈ bindings, b.Applies namespaceName groups ∧ q.grantToken ∈ b.role.resourceTypes ∧
        v ∈ b.role.verbs) ∧
    ∀ others : List RoleBinding,
      (∀ b : RoleBinding, b.Applies namespaceName groups → (b ∈ bindings ↔ b ∈ others)) →
      build namespaceName groups others = g := by
  intro g
  refine ⟨?_, fun t => contains_build_iff, fun t => ?_, fun q => ?_, fun q v => ?_,
    fun others h => ?_⟩
  · rw [isEmpty_build_iff]
    simp
  · rw [mem_tokens]
    exact contains_build_iff
  · rw [permits_build_iff]
    simp [RoleBinding.Grants]
  · rw [permits_build_iff]
    simp [RoleBinding.Grants]
  · exact (build_congr h).symm

section sample

def readTopics : RoleBinding := ⟨"team", "read", ⟨"dev", .group⟩, ⟨["topics", "topics"], {.get}⟩⟩

def changeSchemas : RoleBinding := ⟨"team", "change", ⟨"dev", .group⟩, ⟨["schemas"], {.put}⟩⟩

def strangers : List RoleBinding :=
  [⟨"other", "all", ⟨"dev", .group⟩, ⟨["topics"], {.put}⟩⟩,
    ⟨"team", "user", ⟨"dev", .unsupported⟩, ⟨["topics"], {.put}⟩⟩]

theorem build_exact_verbsApart :
    let bindings := [readTopics, changeSchemas]
    let others := strangers ++ [changeSchemas, readTopics, changeSchemas]
    let topics : ResourceRequest := ⟨"team", "topics", some "t1", none⟩
    (∀ b : RoleBinding, b.Applies "team" {"dev"} → (b ∈ bindings ↔ b ∈ others)) ∧
    build "team" {"dev"} others = build "team" {"dev"} bindings ∧
    (build "team" {"dev"} others).permits topics (some .get) ∧
    ¬ (build "team" {"dev"} others).permits topics (some .put) := by
  intro bindings others topics
  have hothers : ∀ b : RoleBinding, b.Applies "team" {"dev"} → (b ∈ bindings ↔ b ∈ others) := by
    intro b happlies
    have hstranger : b ∉ strangers := by
      simp only [strangers, List.mem_cons, List.not_mem_nil, or_false]
      rintro (rfl | rfl)
      · exact absurd happlies (by decide +kernel)
      · exact absurd happlies (by decide +kernel)
    simp only [bindings, others, List.mem_append, hstranger, false_or, List.mem_cons,
      List.not_mem_nil, or_false]
    constructor
    · rintro (rfl | rfl) <;> simp
    · rintro (rfl | rfl | rfl) <;> simp
  obtain ⟨-, -, -, -, hverb, hsame⟩ := build_exact "team" {"dev"} bindings
  rw [hsame others hothers, hverb, hverb]
  exact ⟨hothers, rfl, by decide +kernel, by decide +kernel⟩

end sample

end GrantSet

end NamespaceAccess
