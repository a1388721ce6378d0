import NamespaceAccess.Proofs.Listing
import Mathlib.Data.List.Basic
import Mathlib.Tactic.SplitIfs

/-!
More groups and more bindings never grant less, and enforcing verbs never grants more.
-/
namespace NamespaceAccess

/-- How much an answer grants. One that says nothing about grants has no rank. -/
def accessRank? : AccessResult → Option Nat
  | .error (.denied (.forbidden _)) => some 0
  | .ok .unknown => some 1
  | .ok .allowed => some 2
  | _ => none

/-- The second answer grants no less than the first, unless both are that the namespace does not
exist. -/
structure GrowsTo (x y : AccessResult) : Prop where
  unknown_iff : ∀ name, x = .error (.denied (.unknown name)) ↔ y = .error (.denied (.unknown name))
  rank_le : (∀ name, x ≠ .error (.denied (.unknown name))) →
    ∃ m n, accessRank? x = some m ∧ accessRank? y = some n ∧ m ≤ n

def ListingGrowsTo (x y : Except LookupError (List ResourceDefinition)) : Prop :=
  ∃ shorter longer, x = .ok shorter ∧ y = .ok longer ∧ shorter.Sublist longer

theorem GrowsTo.of_rank_le {x y : AccessResult} {m n : Nat} (hx : accessRank? x = some m)
    (hy : accessRank? y = some n) (h : m ≤ n) : GrowsTo x y where
  unknown_iff name := by
    constructor
    · rintro rfl
      cases hx
    · rintro rfl
      cases hy
  rank_le _ := ⟨m, n, hx, hy, h⟩

theorem GrowsTo.unknown (name : String) :
    GrowsTo (.error (.denied (.unknown name))) (.error (.denied (.unknown name))) where
  unknown_iff _ := Iff.rfl
  rank_le h := absurd rfl (h name)

theorem Catalog.withPaths_sublist {paths more : Std.ExtTreeSet String}
    (h : ∀ path ∈ paths, path ∈ more) : (withPaths paths).Sublist (withPaths more) := by
  unfold withPaths
  refine List.monotone_filter_right all fun entry hentry => ?_
  simp only [Std.ExtTreeSet.contains_iff_mem] at hentry ⊢
  exact h _ hentry

theorem RoleBinding.Applies.mono {b : RoleBinding} {namespaceName : String}
    {groups groups' : GroupSet} (hgroups : ∀ g ∈ groups, g ∈ groups')
    (h : b.Applies namespaceName groups) : b.Applies namespaceName groups' :=
  ⟨h.1, h.2.1, hgroups _ h.2.2⟩

section bindings

variable {config : EngineConfig} {groups groups' : GroupSet} {bindings bindings' : List RoleBinding}
  {r : ResourceRequest} {verb : Option Verb}

theorem accessRank?_result_judge_build :
    accessRank? (Judgement.result
      ((GrantSet.build r.namespaceName groups bindings).judge config.enforceVerbs r verb)) =
      some (if ∀ b ∈ bindings, ¬ b.Applies r.namespaceName groups then 0
        else if ∃ b ∈ bindings,
          b.Grants r.namespaceName groups r.grantToken (config.requiredVerb verb) then 2
        else 1) := by
  rw [result_judge_build]
  split
  · rfl
  · split <;> rfl

theorem growsTo_result_judge_build
    (h : ∀ b ∈ bindings, b.Applies r.namespaceName groups →
      b ∈ bindings' ∧ b.Applies r.namespaceName groups') :
    GrowsTo
      (Judgement.result
        ((GrantSet.build r.namespaceName groups bindings).judge config.enforceVerbs r verb))
      (Judgement.result
        ((GrantSet.build r.namespaceName groups' bindings').judge config.enforceVerbs r verb)) := by
  apply GrowsTo.of_rank_le accessRank?_result_judge_build accessRank?_result_judge_build
  have happlies (hnone : ∀ b ∈ bindings', ¬ b.Applies r.namespaceName groups') :
      ∀ b ∈ bindings, ¬ b.Applies r.namespaceName groups :=
    fun b hb happlies => hnone b (h b hb happlies).1 (h b hb happlies).2
  have hgrants : (∃ b ∈ bindings,
        b.Grants r.namespaceName groups r.grantToken (config.requiredVerb verb)) →
      ∃ b ∈ bindings',
        b.Grants r.namespaceName groups' r.grantToken (config.requiredVerb verb) := by
    rintro ⟨b, hb, happlies, hlists⟩
    exact ⟨b, (h b hb happlies).1, (h b hb happlies).2, hlists⟩
  split_ifs <;> simp_all

/-- The verb is asked for only after the token, so all that can be lost is an access that was
allowed. -/
theorem result_judge_build_enforced :
    let judged (enforceVerbs : Bool) := Judgement.result
      ((GrantSet.build r.namespaceName groups bindings).judge enforceVerbs r verb)
    judged true = judged false ∨
      (judged false = .ok .allowed ∧ judged true = .ok .unknown ∧ verb.isSome) := by
  intro judged
  have hjudged (config : EngineConfig) : judged config.enforceVerbs =
      if ∀ b ∈ bindings, ¬ b.Applies r.namespaceName groups then
        .error (.denied (.forbidden r.namespaceName))
      else if ∃ b ∈ bindings,
          b.Grants r.namespaceName groups r.grantToken (config.requiredVerb verb) then
        .ok .allowed
      else .ok .unknown := result_judge_build
  have hstrict : judged true = _ := hjudged ⟨"", true⟩
  have hloose : judged false = _ := hjudged ⟨"", false⟩
  simp only [EngineConfig.requiredVerb, if_true, Bool.false_eq_true, if_false] at hstrict hloose
  rw [hstrict, hloose]
  by_cases happlies : ∀ b ∈ bindings, ¬ b.Applies r.namespaceName groups
  · simp only [if_pos happlies, true_or]
  rw [if_neg happlies, if_neg happlies]
  by_cases hverb : ∃ b ∈ bindings, b.Grants r.namespaceName groups r.grantToken verb
  · have htoken : ∃ b ∈ bindings, b.Grants r.namespaceName groups r.grantToken none := by
      obtain ⟨b, hb, hgrants⟩ := hverb
      exact ⟨b, hb, hgrants.without_verb⟩
    rw [if_pos hverb, if_pos htoken]
    exact .inl rfl
  · by_cases htoken : ∃ b ∈ bindings, b.Grants r.namespaceName groups r.grantToken none
    · rw [if_neg hverb, if_pos htoken]
      cases verb with
      | none => exact absurd htoken hverb
      | some v => exact .inr ⟨rfl, rfl, rfl⟩
    · rw [if_neg hverb, if_neg htoken]
      exact .inl rfl

end bindings

namespace Directory

/-- What the first directory holds for the first groups, the second holds for the others. -/
structure Within (d e : Directory) (groups groups' : GroupSet) : Prop where
  namespaces_eq : ∀ name : String, d.namespaces[name]? = e.namespaces[name]?
  stores : ∀ b, d.Stores b → e.Stores b
  groups : ∀ g ∈ groups, g ∈ groups'

variable {d e : Directory} {config : EngineConfig} {request : AccessRequest} {p q : Principal}

theorem within_of_groups (d : Directory) {groups groups' : GroupSet}
    (h : ∀ g ∈ groups, g ∈ groups') : d.Within d groups groups' :=
  ⟨fun _ => rfl, fun _ => id, h⟩

theorem apply_of_inserted {b : RoleBinding} (h : d.insertBinding b = .ok e) :
    d.apply (.insertBinding b) = e := by
  simp [apply, h, Except.toOption]

/-- A new key takes nothing away. -/
theorem within_insertBinding {b : RoleBinding} (hnew : d.bindings[b.key]? = none)
    (hinserted : d.insertBinding b = .ok e) (groups : GroupSet) : d.Within e groups groups where
  namespaces_eq name := by rw [← apply_of_inserted hinserted, namespaces_apply]
  stores stored := by
    rintro ⟨key, hstored⟩
    refine ⟨key, ?_⟩
    rw [← apply_of_inserted hinserted, bindings_apply]
    simp only
    split
    next hkey =>
      rw [hkey.2, hstored] at hnew
      contradiction
    next => exact hstored
  groups _ := id

theorem removeBinding_within (d : Directory) (key : BindingKey) (groups : GroupSet) :
    (d.removeBinding key).2.Within d groups groups where
  namespaces_eq _ := rfl
  stores stored := by
    rintro ⟨other, hstored⟩
    change (d.apply (.removeBinding key)).bindings[other]? = some stored at hstored
    refine ⟨other, ?_⟩
    rw [bindings_apply] at hstored
    simp only at hstored
    split at hstored
    · contradiction
    · exact hstored
  groups _ := id

theorem Within.exists_mem_findBindings (h : d.Within e p.groups q.groups) {b : RoleBinding}
    {namespaceName : String} (hb : b ∈ d.findBindings p.groups)
    (happlies : b.Applies namespaceName p.groups) :
    b ∈ e.findBindings q.groups ∧ b.Applies namespaceName q.groups := by
  have happlies' := happlies.mono h.groups
  exact ⟨mem_findBindings_iff.mpr ⟨h.stores b (mem_findBindings_iff.mp hb).1, happlies'.2⟩,
    happlies'⟩

/-- The first caller may be let in by the admin group, by a binding, or not at all, and each of these
carries over to the second. -/
theorem Within.answer_growsTo (h : d.Within e p.groups q.groups) :
    GrowsTo (config.answer collaborators d request (some p))
      (config.answer collaborators e request (some q)) := by
  cases hr : RequestPath.classify request.path with
  | none =>
    rw [EngineConfig.answer_of_unclassified hr, EngineConfig.answer_of_unclassified hr]
    exact .of_rank_le rfl rfl (Nat.le_refl _)
  | some r =>
    rw [EngineConfig.answer_collaborators hr, EngineConfig.answer_collaborators hr,
      ← h.namespaces_eq]
    cases d.namespaces[r.namespaceName]? with
    | none => exact .unknown _
    | some n =>
      by_cases hp : config.adminGroup ∈ p.groups
      · simp only [if_pos hp, if_pos (h.groups _ hp)]
        exact .of_rank_le rfl rfl (Nat.le_refl _)
      by_cases hq : config.adminGroup ∈ q.groups
      · simp only [if_neg hp, if_pos hq]
        refine .of_rank_le accessRank?_result_judge_build rfl ?_
        split_ifs <;> omega
      · simp only [if_neg hp, if_neg hq]
        exact growsTo_result_judge_build fun b => h.exists_mem_findBindings

def listing (d : Directory) (config : EngineConfig) (p : Principal) :
    Except LookupError (List ResourceDefinition) :=
  ((config.listCatalog (some p)).run collaborators d).result

theorem listing_eq (d : Directory) (config : EngineConfig) (p : Principal) :
    d.listing config p =
      .ok (if config.adminGroup ∈ p.groups then Catalog.all else d.visible p.groups) := by
  by_cases ha : config.adminGroup ∈ p.groups
  · rw [if_pos ha]
    exact EngineConfig.result_listCatalog_of_admin ha
  · rw [if_neg ha]
    exact EngineConfig.result_listCatalog ha rfl

theorem Within.visible_sublist (h : d.Within e p.groups q.groups) :
    (d.visible p.groups).Sublist (e.visible q.groups) := by
  apply Catalog.withPaths_sublist
  intro path hpath
  rw [GrantSet.mem_unscopedTokens] at hpath ⊢
  obtain ⟨b, hb, hgroup, htoken⟩ := hpath
  obtain ⟨hb', happlies⟩ := h.exists_mem_findBindings hb ⟨rfl, hgroup⟩
  exact ⟨b, hb', happlies.2, htoken⟩

theorem Within.listing_growsTo (h : d.Within e p.groups q.groups) :
    ListingGrowsTo (d.listing config p) (e.listing config q) := by
  rw [listing_eq, listing_eq]
  refine ⟨_, _, rfl, rfl, ?_⟩
  by_cases hp : config.adminGroup ∈ p.groups
  · rw [if_pos hp, if_pos (h.groups _ hp)]
  by_cases hq : config.adminGroup ∈ q.groups
  · rw [if_neg hp, if_pos hq]
    exact List.filter_sublist
  · rw [if_neg hp, if_neg hq]
    exact h.visible_sublist

theorem answer_growsTo_of_within (h : ∀ groups, d.Within e groups groups)
    (principal : Option Principal) :
    GrowsTo (config.answer collaborators d request principal)
      (config.answer collaborators e request principal) := by
  cases principal with
  | none =>
    rw [EngineConfig.answer_of_unauthenticated, EngineConfig.answer_of_unauthenticated]
    exact .of_rank_le rfl rfl (Nat.le_refl _)
  | some p => exact (h p.groups).answer_growsTo

/-- Enforcing verbs concerns only callers outside the admin group who name a verb, and all it does is
to let them in no longer. -/
theorem answer_enforced (d : Directory) (config : EngineConfig) (request : AccessRequest)
    (principal : Option Principal) :
    let answer (enforceVerbs : Bool) :=
      EngineConfig.answer ⟨config.adminGroup, enforceVerbs⟩ collaborators d request principal
    answer true = answer false ∨
      (answer false = .ok .allowed ∧ answer true = .ok .unknown ∧ request.verb.isSome ∧
        ∃ p ∈ principal, config.adminGroup ∉ p.groups) := by
  intro answer
  cases principal with
  | none => exact .inl rfl
  | some p =>
    cases hr : RequestPath.classify request.path with
    | none =>
      left
      simp only [answer, EngineConfig.answer_of_unclassified hr]
    | some r =>
      simp only [answer, EngineConfig.answer_collaborators hr]
      cases d.namespaces[r.namespaceName]? with
      | none => exact .inl rfl
      | some n =>
        by_cases ha : config.adminGroup ∈ p.groups
        · simp only [if_pos ha, true_or]
        · simp only [if_neg ha]
          refine result_judge_build_enforced.imp id ?_
          rintro ⟨hallowed, hunknown, hverb⟩
          exact ⟨hallowed, hunknown, hverb, p, rfl, ha⟩

/-- Access grows with the caller's groups and with the bindings, and so does what is listed. To
enforce verbs can only take away, from requests with a verb, an access that was allowed. -/
theorem access_grows (d : Directory) (config : EngineConfig) (request : AccessRequest) :
    let answer := config.answer collaborators
    (∀ p q : Principal, (∀ g ∈ p.groups, g ∈ q.groups) →
      GrowsTo (answer d request (some p)) (answer d request (some q)) ∧
      ListingGrowsTo (d.listing config p) (d.listing config q)) ∧
    (∀ (b : RoleBinding) (after : Directory), d.bindings[b.key]? = none →
      d.insertBinding b = .ok after →
      (∀ principal, GrowsTo (answer d request principal) (answer after request principal)) ∧
      ∀ p, ListingGrowsTo (d.listing config p) (after.listing config p)) ∧
    (∀ key : BindingKey,
      let after := (d.removeBinding key).2
      (∀ principal, GrowsTo (answer after request principal) (answer d request principal)) ∧
      ∀ p, ListingGrowsTo (after.listing config p) (d.listing config p)) ∧
    ∀ principal,
      let enforcing (enforceVerbs : Bool) :=
        EngineConfig.answer ⟨config.adminGroup, enforceVerbs⟩ collaborators d request principal
      enforcing true = enforcing false ∨
        (enforcing false = .ok .allowed ∧ enforcing true = .ok .unknown ∧ request.verb.isSome ∧
          ∃ p ∈ principal, config.adminGroup ∉ p.groups) := by
  intro answer
  refine ⟨fun p q hgroups => ?_, fun b after hnew hinserted => ?_, fun key => ?_,
    answer_enforced d config request⟩
  · have hwithin := d.within_of_groups hgroups
    exact ⟨hwithin.answer_growsTo, hwithin.listing_growsTo⟩
  · have hwithin := within_insertBinding hnew hinserted
    exact ⟨answer_growsTo_of_within hwithin, fun p => (hwithin p.groups).listing_growsTo⟩
  · have hwithin := d.removeBinding_within key
    exact ⟨answer_growsTo_of_within hwithin, fun p => (hwithin p.groups).listing_growsTo⟩

section sample

def readersDirectory : Directory :=
  (empty.apply (.insertNamespace ⟨"team", "c"⟩)).apply
    (.insertBinding (sampleBinding "team" "topics" {.get}))

def deletersBinding : RoleBinding :=
  ⟨"team", "deleters", ⟨"dev", .group⟩, ⟨["topics", "schemas"], {.delete}⟩⟩

theorem access_grows_deleters :
    let answer := sampleConfig.answer collaborators
    let request : AccessRequest := ⟨"/namespaces/team/topics/t1", some .delete⟩
    let newcomer : Principal := ⟨"bob", ∅, ∅⟩
    let after := readersDirectory.apply (.insertBinding deletersBinding)
    ((∀ g ∈ newcomer.groups, g ∈ sampleCaller.groups) ∧
      readersDirectory.bindings[deletersBinding.key]? = none ∧
      readersDirectory.insertBinding deletersBinding = .ok after) ∧
    (outcomeLabel (answer readersDirectory request (some newcomer)) = "forbidden_namespace" ∧
      outcomeLabel (answer readersDirectory request (some sampleCaller)) = "unknown" ∧
      outcomeLabel (answer after request (some sampleCaller)) = "allowed") ∧
    GrowsTo (answer readersDirectory request (some newcomer))
      (answer readersDirectory request (some sampleCaller)) ∧
    GrowsTo (answer readersDirectory request (some sampleCaller))
      (answer after request (some sampleCaller)) ∧
    ListingGrowsTo (readersDirectory.listing sampleConfig sampleCaller)
      (after.listing sampleConfig sampleCaller) := by
  intro answer request newcomer after
  have hgroups : ∀ g ∈ newcomer.groups, g ∈ sampleCaller.groups := by simp [newcomer]
  have hnew : readersDirectory.bindings[deletersBinding.key]? = none := by decide +kernel
  have hvalid : deletersBinding.error? = none := by decide +kernel
  have hinserted : readersDirectory.insertBinding deletersBinding = .ok after := by
    simp [after, apply, insertBinding, hvalid, Except.toOption]
  obtain ⟨hbygroups, hbybinding, -, -⟩ := access_grows readersDirectory sampleConfig request
  obtain ⟨hanswer, hlisting⟩ := hbybinding deletersBinding after hnew hinserted
  exact ⟨⟨hgroups, hnew, hinserted⟩, by decide +kernel, (hbygroups _ _ hgroups).1,
    hanswer (some sampleCaller), hlisting sampleCaller⟩

end sample

end Directory

end NamespaceAccess
