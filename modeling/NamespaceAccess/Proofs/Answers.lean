import NamespaceAccess.Engine
import NamespaceAccess.Proofs.Grants
import Mathlib.Tactic.Push

/-!
What a caller is told, stated by the caller, the path and the answers of the two lookups alone.
-/
namespace NamespaceAccess

/-- The verb that has to be granted together with the token, if any has to be. -/
def EngineConfig.requiredVerb (config : EngineConfig) (verb : Option Verb) : Option Verb :=
  if config.enforceVerbs then verb else none

/-- What the caller is told when the collaborators start from the given state. -/
def EngineConfig.answer {σ : Type} (config : EngineConfig) (c : Collaborators σ) (state : σ)
    (request : AccessRequest) (principal : Option Principal) : AccessResult :=
  ((config.checkRequest request principal).run c state).result

section bindings

variable {config : EngineConfig} {groups : GroupSet} {bindings : List RoleBinding}
  {r : ResourceRequest} {verb : Option Verb}

theorem judge_build_of_none_applies (h : ∀ b ∈ bindings, ¬ b.Applies r.namespaceName groups) :
    (GrantSet.build r.namespaceName groups bindings).judge config.enforceVerbs r verb =
      .error (.denied (.forbidden r.namespaceName)) := by
  simp [GrantSet.judge, GrantSet.isEmpty_build_iff.mpr h]

theorem isEmpty_build_eq_false {b : RoleBinding} (hb : b ∈ bindings)
    (h : b.Applies r.namespaceName groups) :
    (GrantSet.build r.namespaceName groups bindings).isEmpty = false := by
  rw [Bool.eq_false_iff]
  intro hempty
  exact GrantSet.isEmpty_build_iff.mp hempty b hb h

/-- The binding that has the token with the verb has the token alone as well, which is asked first. -/
theorem judge_build_of_grants {b : RoleBinding} (hb : b ∈ bindings)
    (h : b.Grants r.namespaceName groups r.grantToken (config.requiredVerb verb)) :
    (GrantSet.build r.namespaceName groups bindings).judge config.enforceVerbs r verb =
      .ok ⟨.allowed, .grantMatched⟩ := by
  have htoken := GrantSet.permits_build_iff.mpr ⟨b, hb, h.without_verb⟩
  have hverb := GrantSet.permits_build_iff.mpr ⟨b, hb, h⟩
  unfold EngineConfig.requiredVerb at hverb
  simp [GrantSet.judge, isEmpty_build_eq_false hb h.1, htoken, hverb]

theorem judge_build_of_none_grants {b : RoleBinding} (hb : b ∈ bindings)
    (happlies : b.Applies r.namespaceName groups)
    (h : ∀ b ∈ bindings,
      ¬ b.Grants r.namespaceName groups r.grantToken (config.requiredVerb verb)) :
    Judgement.result
      ((GrantSet.build r.namespaceName groups bindings).judge config.enforceVerbs r verb) =
      .ok .unknown := by
  have hverb := GrantSet.permits_build_eq_false h
  unfold EngineConfig.requiredVerb at hverb
  unfold GrantSet.judge
  rw [isEmpty_build_eq_false hb happlies, hverb]
  split
  · contradiction
  · split <;> rfl

/-- The three answers that bindings can lead to exclude each other. -/
theorem result_judge_build :
    Judgement.result
      ((GrantSet.build r.namespaceName groups bindings).judge config.enforceVerbs r verb) =
      if ∀ b ∈ bindings, ¬ b.Applies r.namespaceName groups then
        .error (.denied (.forbidden r.namespaceName))
      else if ∃ b ∈ bindings,
          b.Grants r.namespaceName groups r.grantToken (config.requiredVerb verb) then
        .ok .allowed
      else .ok .unknown := by
  split
  next hnone => rw [judge_build_of_none_applies hnone]; rfl
  next hsome =>
    split
    next hgrants =>
      obtain ⟨b, hb, h⟩ := hgrants
      rw [judge_build_of_grants hb h]
      rfl
    next hnone =>
      push Not at hsome hnone
      obtain ⟨b, hb, happlies⟩ := hsome
      exact judge_build_of_none_grants hb happlies hnone

theorem result_judge_build_eq_forbidden_iff :
    Judgement.result
      ((GrantSet.build r.namespaceName groups bindings).judge config.enforceVerbs r verb) =
      .error (.denied (.forbidden r.namespaceName)) ↔
      ¬ ∃ b ∈ bindings, b.Applies r.namespaceName groups := by
  rw [result_judge_build]
  split
  next hnone => simpa using hnone
  next hsome =>
    simp only [not_forall, not_not] at hsome
    split <;> simpa using hsome

theorem result_judge_build_eq_allowed_iff :
    Judgement.result
      ((GrantSet.build r.namespaceName groups bindings).judge config.enforceVerbs r verb) =
      .ok .allowed ↔
      ∃ b ∈ bindings,
        b.Grants r.namespaceName groups r.grantToken (config.requiredVerb verb) := by
  rw [result_judge_build]
  split
  next hnone =>
    simp only [reduceCtorEq, false_iff]
    rintro ⟨b, hb, h⟩
    exact hnone b hb h.1
  next => split <;> simp_all

theorem result_judge_build_eq_unknown_iff :
    Judgement.result
      ((GrantSet.build r.namespaceName groups bindings).judge config.enforceVerbs r verb) =
      .ok .unknown ↔
      (∃ b ∈ bindings, b.Applies r.namespaceName groups) ∧
        ¬ ∃ b ∈ bindings,
          b.Grants r.namespaceName groups r.grantToken (config.requiredVerb verb) := by
  rw [result_judge_build]
  split
  next hnone =>
    simp only [reduceCtorEq, false_iff, not_and]
    rintro ⟨b, hb, h⟩
    exact absurd h (hnone b hb)
  next hsome =>
    simp only [not_forall, not_not, exists_prop] at hsome
    split <;> simp_all

end bindings

namespace EngineConfig

variable {σ : Type} {config : EngineConfig} {c : Collaborators σ} {state : σ}
  {request : AccessRequest} {p : Principal} {r : ResourceRequest}

/-- A call does what judging it does, and then records one event. -/
theorem run_checkRequest {principal : Option Principal} :
    let t := (config.judgement request principal).run c state
    (config.checkRequest request principal).run c state =
      ⟨t.result.result, t.lookups, t.events ++ [.decision (request.event principal t.result)],
        t.state⟩ := by
  change (Dialogue.bind _ _).run c state = _
  rw [Dialogue.run_bind]
  simp [Transcript.followedBy, Dialogue.run, Transcript.withEvent, Transcript.pure]

theorem answer_eq_result_judgement {principal : Option Principal} :
    config.answer c state request principal =
      ((config.judgement request principal).run c state).result.result := by
  rw [answer, run_checkRequest]

theorem answer_of_unauthenticated : config.answer c state request none = .ok .unknown := by
  rw [answer_eq_result_judgement]
  rfl

theorem answer_of_unclassified (h : RequestPath.classify request.path = none) :
    config.answer c state request (some p) = .ok .unknown := by
  rw [answer_eq_result_judgement]
  simp only [judgement, AccessRequest.parsedFor, Option.bind_some, h]
  rfl

theorem answer_of_classified (h : RequestPath.classify request.path = some r) :
    config.answer c state request (some p) =
      ((config.judge p r request.verb).run c state).result.result := by
  rw [answer_eq_result_judgement]
  simp only [judgement, AccessRequest.parsedFor, Option.bind_some, h]

theorem answer_of_namespaceError {e : LookupError}
    (h : RequestPath.classify request.path = some r)
    (hn : (c.findNamespace r.namespaceName state).1 = .error e) :
    config.answer c state request (some p) = .error (.lookupFailed e) := by
  rw [answer_of_classified h]
  simp only [judge, Dialogue.run, hn]
  rfl

theorem answer_of_noNamespace (h : RequestPath.classify request.path = some r)
    (hn : (c.findNamespace r.namespaceName state).1 = .ok none) :
    config.answer c state request (some p) = .error (.denied (.unknown r.namespaceName)) := by
  rw [answer_of_classified h]
  simp only [judge, Dialogue.run, hn]
  rfl

theorem answer_of_admin {n : Namespace} (h : RequestPath.classify request.path = some r)
    (hn : (c.findNamespace r.namespaceName state).1 = .ok (some n))
    (ha : config.adminGroup ∈ p.groups) :
    config.answer c state request (some p) = .ok .allowed := by
  rw [answer_of_classified h]
  simp only [judge, Dialogue.run, hn, isAdmin_iff.mpr ha]
  rfl

section granted

variable {n : Namespace} (h : RequestPath.classify request.path = some r)
  (hn : (c.findNamespace r.namespaceName state).1 = .ok (some n))
  (ha : config.adminGroup ∉ p.groups)
include h hn ha

theorem answer_of_bindingsError {e : LookupError}
    (hb : (c.findBindings p.groups (c.findNamespace r.namespaceName state).2).1 = .error e) :
    config.answer c state request (some p) = .error (.lookupFailed e) := by
  rw [answer_of_classified h]
  simp only [judge, Dialogue.run, hn, isAdmin_iff, ha, if_false, hb]
  rfl

theorem answer_of_bindings {bindings : List RoleBinding}
    (hb : (c.findBindings p.groups (c.findNamespace r.namespaceName state).2).1 = .ok bindings) :
    config.answer c state request (some p) =
      Judgement.result ((GrantSet.build r.namespaceName p.groups bindings).judge
        config.enforceVerbs r request.verb) := by
  rw [answer_of_classified h]
  simp only [judge, Dialogue.run, hn, isAdmin_iff, ha, if_false, hb]
  rfl

end granted

/-- Two worlds that agree on the namespace and on the bindings that apply cannot be told apart. -/
theorem answer_congr {τ : Type} {c' : Collaborators τ} {state' : τ}
    {bindings bindings' : List RoleBinding} (h : RequestPath.classify request.path = some r)
    (hn : (c.findNamespace r.namespaceName state).1 = (c'.findNamespace r.namespaceName state').1)
    (hb : (c.findBindings p.groups (c.findNamespace r.namespaceName state).2).1 = .ok bindings)
    (hb' : (c'.findBindings p.groups (c'.findNamespace r.namespaceName state').2).1 =
      .ok bindings')
    (hsame : ∀ b : RoleBinding, b.Applies r.namespaceName p.groups →
      (b ∈ bindings ↔ b ∈ bindings')) :
    config.answer c state request (some p) = config.answer c' state' request (some p) := by
  cases hfound : (c.findNamespace r.namespaceName state).1 with
  | error e => rw [answer_of_namespaceError h hfound, answer_of_namespaceError h (hn ▸ hfound)]
  | ok found =>
    cases found with
    | none => rw [answer_of_noNamespace h hfound, answer_of_noNamespace h (hn ▸ hfound)]
    | some n =>
      by_cases ha : config.adminGroup ∈ p.groups
      · rw [answer_of_admin h hfound ha, answer_of_admin h (hn ▸ hfound) ha]
      · rw [answer_of_bindings h hfound ha hb, answer_of_bindings h (hn ▸ hfound) ha hb',
          GrantSet.build_congr hsame]

/-- Every answer follows from the caller, the path and what the two lookups say. The namespace is
looked for before the caller's groups count for anything, and admins need no bindings. -/
theorem answer_rules {σ : Type} (config : EngineConfig) (c : Collaborators σ) (state : σ)
    (request : AccessRequest) :
    config.answer c state request none = .ok .unknown ∧
    ∀ p : Principal,
      (RequestPath.classify request.path = none →
        config.answer c state request (some p) = .ok .unknown) ∧
      ∀ r, RequestPath.classify request.path = some r →
        let found := c.findNamespace r.namespaceName state
        let answer := config.answer c state request (some p)
        (∀ e, found.1 = .error e → answer = .error (.lookupFailed e)) ∧
        (found.1 = .ok none → answer = .error (.denied (.unknown r.namespaceName))) ∧
        ∀ n, found.1 = .ok (some n) →
          (config.adminGroup ∈ p.groups → answer = .ok .allowed) ∧
          (config.adminGroup ∉ p.groups →
            let bound := (c.findBindings p.groups found.2).1
            (∀ e, bound = .error e → answer = .error (.lookupFailed e)) ∧
            ∀ bindings, bound = .ok bindings →
              (answer = .error (.denied (.forbidden r.namespaceName)) ↔
                ¬ ∃ b ∈ bindings, b.Applies r.namespaceName p.groups) ∧
              (answer = .ok .allowed ↔ ∃ b ∈ bindings,
                b.Grants r.namespaceName p.groups r.grantToken
                  (config.requiredVerb request.verb)) ∧
              (answer = .ok .unknown ↔ (∃ b ∈ bindings, b.Applies r.namespaceName p.groups) ∧
                ¬ ∃ b ∈ bindings, b.Grants r.namespaceName p.groups r.grantToken
                  (config.requiredVerb request.verb))) := by
  refine ⟨answer_of_unauthenticated, fun p => ⟨answer_of_unclassified, fun r hr => ?_⟩⟩
  refine ⟨fun e => answer_of_namespaceError hr, answer_of_noNamespace hr, fun n hn => ?_⟩
  refine ⟨answer_of_admin hr hn, fun ha => ⟨fun e => answer_of_bindingsError hr hn ha, ?_⟩⟩
  intro bindings hb
  rw [answer_of_bindings hr hn ha hb]
  exact ⟨result_judge_build_eq_forbidden_iff, result_judge_build_eq_allowed_iff,
    result_judge_build_eq_unknown_iff⟩

section sample

open GrantSet (readTopics changeSchemas strangers)

def patchy : Collaborators Nat where
  findNamespace name n :=
    (if name = "down" then .error (.unavailable "store")
      else .ok (if name = "gone" then none else some ⟨name, "c"⟩), n + 1)
  findBindings _ n := (.ok (strangers ++ [readTopics, changeSchemas]), n + 1)

/-- Developers may read topics, and another verb on the same path gets no answer. -/
theorem answer_rules_patchy :
    let ann : Principal := ⟨"ann", {"dev"}, {adminRole}⟩
    let root : Principal := ⟨"root", {"admins"}, ∅⟩
    let config : EngineConfig := ⟨"admins", true⟩
    let answer (path : String) (verb : Verb) := config.answer patchy 0 ⟨path, some verb⟩
    RequestPath.classify "/api/namespaces/team/topics/t1/" =
      some ⟨"team", "topics", some "t1", none⟩ ∧
    answer "/api/namespaces/team/topics/t1/" .get none = .ok .unknown ∧
    answer "/api/namespaces/team/topics/t1/" .get (some ann) = .ok .allowed ∧
    answer "/api/namespaces/team/topics/t1/" .put (some ann) = .ok .unknown ∧
    answer "/api/namespaces/team/topics/t1/" .put (some root) = .ok .allowed ∧
    answer "/namespaces/quiet/topics" .get (some ann) = .error (.denied (.forbidden "quiet")) ∧
    answer "/namespaces/gone/topics" .get (some root) = .error (.denied (.unknown "gone")) ∧
    answer "/namespaces/down/topics" .get (some root) =
      .error (.lookupFailed (.unavailable "store")) ∧
    answer "/api/namespaces/team" .get (some root) = .ok .unknown := by
  intro ann root config answer
  have hann : config.adminGroup ∉ ann.groups := by decide +kernel
  have hroot : config.adminGroup ∈ root.groups := by decide +kernel
  have hteam : RequestPath.classify "/api/namespaces/team/topics/t1/" =
      some ⟨"team", "topics", some "t1", none⟩ := by decide +kernel
  have hquiet : RequestPath.classify "/namespaces/quiet/topics" =
      some ⟨"quiet", "topics", none, none⟩ := by decide +kernel
  have hgone : RequestPath.classify "/namespaces/gone/topics" =
      some ⟨"gone", "topics", none, none⟩ := by decide +kernel
  have hdown : RequestPath.classify "/namespaces/down/topics" =
      some ⟨"down", "topics", none, none⟩ := by decide +kernel
  have hrules (path : String) (verb : Verb) := answer_rules config patchy 0 ⟨path, some verb⟩
  have hteam' (verb : Verb) (p : Principal) :=
    (((hrules _ verb).2 p).2 _ hteam).2.2 ⟨"team", "c"⟩ rfl
  have hquiet' := (((hrules _ .get).2 ann).2 _ hquiet).2.2 ⟨"quiet", "c"⟩ rfl
  obtain ⟨-, hallowed, -⟩ := ((hteam' .get ann).2 hann).2 _ rfl
  obtain ⟨-, -, hunknown⟩ := ((hteam' .put ann).2 hann).2 _ rfl
  obtain ⟨hforbidden, -⟩ := (hquiet'.2 hann).2 _ rfl
  obtain ⟨hfailed, -⟩ := ((hrules _ .get).2 root).2 _ hdown
  obtain ⟨-, hmissing, -⟩ := ((hrules _ .get).2 root).2 _ hgone
  exact ⟨hteam, (hrules _ .get).1, hallowed.mpr (by decide +kernel),
    hunknown.mpr (by decide +kernel), (hteam' .put root).1 hroot,
    hforbidden.mpr (by decide +kernel), hmissing rfl, hfailed _ rfl,
    ((hrules _ .get).2 root).1 (by decide +kernel)⟩

end sample

end EngineConfig

end NamespaceAccess
