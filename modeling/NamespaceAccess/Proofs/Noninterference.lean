import NamespaceAccess.Proofs.Answers
import NamespaceAccess.RuleChain
import Mathlib.Data.List.Forall2

/-!
What callers merely claim makes no difference. The username, the roles, the resource that is
named, the way the path leads to it and, unless verbs are enforced, the verb may all be other than
they are: the same is asked of the collaborators, the same is answered, and what is recorded differs
in nothing but these.
-/
namespace NamespaceAccess

structure ResourceRequest.SameTarget (r s : ResourceRequest) : Prop where
  namespaceName : r.namespaceName = s.namespaceName
  resourceType : r.resourceType = s.resourceType
  subAction : r.subAction = s.subAction

/-- One event is the other with another path, caller, resource or verb. -/
inductive AuditEvent.SameButClaims : AuditEvent → AuditEvent → Prop where
  | decision (e : DecisionEvent) (path : String) (username resourceName : Option String)
    (verb : Option Verb) :
    SameButClaims (.decision e)
      (.decision { e with path := path, username := username, resourceName := resourceName,
                          verb := verb })
  | listing (e : ListingEvent) (username : Option String) :
    SameButClaims (.listing e) (.listing { e with username := username })

/-- The same was asked and answered, and recorded but for the claims. -/
structure Transcript.SameButClaims {σ α : Type} (t u : Transcript σ α) : Prop where
  result : t.result = u.result
  lookups : t.lookups = u.lookups
  state : t.state = u.state
  events : List.Forall₂ AuditEvent.SameButClaims t.events u.events

structure Trail.SameButClaims {σ : Type} (t u : Trail σ) : Prop where
  state : t.state = u.state
  lookups : t.lookups = u.lookups
  events : List.Forall₂ AuditEvent.SameButClaims t.events u.events

theorem AuditEvent.SameButClaims.refl (e : AuditEvent) : SameButClaims e e := by
  cases e with
  | decision e => exact .decision e e.path e.username e.resourceName e.verb
  | listing e => exact .listing e e.username

theorem Trail.SameButClaims.refl {σ : Type} (t : Trail σ) : t.SameButClaims t :=
  ⟨rfl, rfl, List.forall₂_same.mpr fun e _ => AuditEvent.SameButClaims.refl e⟩

theorem Transcript.SameButClaims.withLookup {σ α : Type} {t u : Transcript σ α}
    (h : t.SameButClaims u) (lookup : Lookup) :
    (t.withLookup lookup).SameButClaims (u.withLookup lookup) :=
  ⟨h.result, congrArg (lookup :: ·) h.lookups, h.state, h.events⟩

theorem EngineConfig.requiredVerb_congr {config : EngineConfig} {v w : Option Verb}
    (h : v = w ∨ config.enforceVerbs = false) : config.requiredVerb v = config.requiredVerb w := by
  rcases h with rfl | h
  · rfl
  · simp [requiredVerb, h]

section target

variable {r s : ResourceRequest} (htarget : r.SameTarget s)
include htarget

theorem ResourceRequest.SameTarget.grantToken_eq : r.grantToken = s.grantToken := by
  simp [grantToken, htarget.resourceType, htarget.subAction]

theorem GrantSet.permits_congr (g : GrantSet) (verb : Option Verb) :
    g.permits r verb = g.permits s verb := by
  simp [permits, htarget.grantToken_eq]

theorem GrantSet.judge_congr (g : GrantSet) {config : EngineConfig} {v w : Option Verb}
    (hverb : config.requiredVerb v = config.requiredVerb w) :
    g.judge config.enforceVerbs r v = g.judge config.enforceVerbs s w := by
  unfold EngineConfig.requiredVerb at hverb
  simp only [judge, permits_congr htarget, htarget.namespaceName, hverb]

/-- Of the caller only the groups are read, and of the request only its target. -/
theorem EngineConfig.judge_congr {config : EngineConfig} {p q : Principal} {v w : Option Verb}
    (hgroups : p.groups = q.groups) (hverb : config.requiredVerb v = config.requiredVerb w) :
    config.judge p r v = config.judge q s w := by
  have hadmin : config.isAdmin p = config.isAdmin q := by simp [isAdmin, hgroups]
  simp only [judge, htarget.namespaceName, hgroups, hadmin, GrantSet.judge_congr htarget _ hverb]

end target

/-- Two calls that nothing but claims tells apart. -/
structure SameStanding (request request' : AccessRequest) (p q : Principal) : Prop where
  groups : p.groups = q.groups
  target : ∃ r s, RequestPath.classify request.path = some r ∧
    RequestPath.classify request'.path = some s ∧ r.SameTarget s

namespace SameStanding

variable {request request' : AccessRequest} {p q : Principal} {config : EngineConfig}

theorem judgement_eq (h : SameStanding request request' p q)
    (hverb : config.requiredVerb request.verb = config.requiredVerb request'.verb) :
    config.judgement request (some p) = config.judgement request' (some q) := by
  obtain ⟨r, s, hr, hs, htarget⟩ := h.target
  simp only [EngineConfig.judgement, AccessRequest.parsedFor, Option.bind_some, hr, hs]
  exact EngineConfig.judge_congr htarget h.groups hverb

theorem event_sameButClaims (h : SameStanding request request' p q) (j : Judgement) :
    AuditEvent.SameButClaims (.decision (request.event (some p) j))
      (.decision (request'.event (some q) j)) := by
  obtain ⟨r, s, hr, hs, htarget⟩ := h.target
  have hevent : request'.event (some q) j =
      { request.event (some p) j with
        path := request'.path, username := some q.username, resourceName := s.resourceName,
        verb := request'.verb } := by
    simp [AccessRequest.event, AccessRequest.parsedFor, hr, hs, htarget.namespaceName,
      htarget.resourceType, htarget.subAction]
  rw [hevent]
  exact .decision _ _ _ _ _

theorem checkRequest_sameButClaims {σ : Type} (h : SameStanding request request' p q)
    (hverb : config.requiredVerb request.verb = config.requiredVerb request'.verb)
    (c : Collaborators σ) (state : σ) :
    ((config.checkRequest request (some p)).run c state).SameButClaims
      ((config.checkRequest request' (some q)).run c state) := by
  rw [EngineConfig.run_checkRequest, EngineConfig.run_checkRequest, h.judgement_eq hverb]
  exact ⟨rfl, rfl, rfl, List.rel_append (List.forall₂_same.mpr fun e _ => .refl e)
    (.cons (h.event_sameButClaims _) .nil)⟩

end SameStanding

/-- Dialogues that no collaborator tells apart carry trails on that are the same but for claims. -/
theorem Trail.SameButClaims.perform {σ α : Type} {c : Collaborators σ} {d d' : Dialogue α}
    {t u : Trail σ} (h : t.SameButClaims u)
    (hd : ∀ state, (d.run c state).SameButClaims (d'.run c state)) :
    (Trail.perform c d t).1 = (Trail.perform c d' u).1 ∧
      (Trail.perform c d t).2.SameButClaims (Trail.perform c d' u).2 := by
  have hrun := hd t.state
  simp only [Trail.perform, ← h.state]
  refine ⟨hrun.result, hrun.state, ?_, List.rel_append h.events hrun.events⟩
  rw [h.lookups, hrun.lookups]

namespace RuleChain

variable {σ : Type} {request request' : AccessRequest} {p q : Principal}

/-- Engines abstain for both callers or for none, so both are answered by the same engine. -/
theorem evaluate_sameButClaims (h : SameStanding request request' p q)
    (engines : List (EngineConfig × Collaborators σ))
    (hverb : ∀ engine ∈ engines,
      engine.1.requiredVerb request.verb = engine.1.requiredVerb request'.verb)
    {t u : Trail σ} (htrails : t.SameButClaims u) :
    let rules := engines.map fun engine => Rule.ofEngine engine.1 engine.2
    (evaluate request (some p) rules t).1 = (evaluate request' (some q) rules u).1 ∧
      (evaluate request (some p) rules t).2.SameButClaims
        (evaluate request' (some q) rules u).2 := by
  induction engines generalizing t u with
  | nil => exact ⟨rfl, htrails⟩
  | cons engine engines ih =>
    obtain ⟨hfirst, hrest⟩ := List.forall_mem_cons.mp hverb
    obtain ⟨hanswer, hnext⟩ := htrails.perform (c := engine.2)
      fun state => h.checkRequest_sameButClaims hfirst engine.2 state
    change (Rule.ofEngine engine.1 engine.2 request (some p) t).1 =
      (Rule.ofEngine engine.1 engine.2 request' (some q) u).1 at hanswer
    simp only [List.map_cons]
    by_cases habstains : (Rule.ofEngine engine.1 engine.2 request (some p) t).1 = .ok .unknown
    · rw [evaluate_cons_of_abstains (Prod.ext habstains rfl),
        evaluate_cons_of_abstains (Prod.ext (hanswer.symm.trans habstains) rfl)]
      exact ih hrest hnext
    · rw [evaluate_cons_of_answers habstains, evaluate_cons_of_answers (hanswer ▸ habstains)]
      exact ⟨hanswer, hnext⟩

end RuleChain

theorem EngineConfig.listCatalog_sameButClaims {σ : Type} (config : EngineConfig)
    {p q : Principal} (hgroups : p.groups = q.groups) (c : Collaborators σ) (state : σ) :
    ((config.listCatalog (some p)).run c state).SameButClaims
      ((config.listCatalog (some q)).run c state) := by
  have hlisted (scope : ListingScope) (visible : List ResourceDefinition) (state : σ) :
      ((listAs scope (some p) visible).run c state).SameButClaims
        ((listAs scope (some q) visible).run c state) :=
    ⟨rfl, rfl, rfl, .cons (.listing _ _) .nil⟩
  have hadmin : config.isAdmin p = config.isAdmin q := by simp [isAdmin, hgroups]
  simp only [listCatalog, hadmin, hgroups]
  split
  · exact hlisted .admin Catalog.all state
  · obtain ⟨⟨bound, next⟩, hbound⟩ : ∃ answer, c.findBindings q.groups state = answer := ⟨_, rfl⟩
    simp only [Dialogue.run, hbound]
    cases bound with
    | error e => exact ⟨rfl, rfl, rfl, .nil⟩
    | ok bindings =>
      exact (hlisted .granted _ next).withLookup _

/-- Callers of the same groups who ask for the same, by whatever path and under whatever name and
roles, cannot be told apart by an engine or by a chain of engines. Where no engine involved enforces
verbs the verbs may differ as well. -/
theorem claims_make_no_difference {σ : Type} {p q : Principal} (hgroups : p.groups = q.groups) :
    (∀ (request request' : AccessRequest) (r s : ResourceRequest),
      RequestPath.classify request.path = some r → RequestPath.classify request'.path = some s →
      r.SameTarget s →
      (∀ (config : EngineConfig) (c : Collaborators σ) (state : σ),
        request.verb = request'.verb ∨ config.enforceVerbs = false →
        ((config.checkRequest request (some p)).run c state).SameButClaims
          ((config.checkRequest request' (some q)).run c state)) ∧
      ∀ (engines : List (EngineConfig × Collaborators σ)) (trail : Trail σ),
        (request.verb = request'.verb ∨ ∀ engine ∈ engines, engine.1.enforceVerbs = false) →
        let rules := engines.map fun engine => Rule.ofEngine engine.1 engine.2
        (RuleChain.evaluate request (some p) rules trail).1 =
            (RuleChain.evaluate request' (some q) rules trail).1 ∧
          (RuleChain.evaluate request (some p) rules trail).2.SameButClaims
            (RuleChain.evaluate request' (some q) rules trail).2) ∧
    ∀ (config : EngineConfig) (c : Collaborators σ) (state : σ),
      ((config.listCatalog (some p)).run c state).SameButClaims
        ((config.listCatalog (some q)).run c state) := by
  refine ⟨fun request request' r s hr hs htarget => ?_, fun config c state =>
    config.listCatalog_sameButClaims hgroups c state⟩
  have hstanding : SameStanding request request' p q := ⟨hgroups, r, s, hr, hs, htarget⟩
  refine ⟨fun config c state hverb => ?_, fun engines trail hverb => ?_⟩
  · exact hstanding.checkRequest_sameButClaims (EngineConfig.requiredVerb_congr hverb) c state
  · refine RuleChain.evaluate_sameButClaims hstanding engines ?_ (.refl trail)
    intro engine hengine
    exact EngineConfig.requiredVerb_congr (hverb.imp id fun h => h engine hengine)

section sample

def topicsForDevelopers : Collaborators Unit where
  findNamespace name _ := (.ok (some ⟨name, "c"⟩), ())
  findBindings _ _ := (.ok [⟨"team", "read", ⟨"dev", .group⟩, ⟨["topics"], {.get}⟩⟩], ())

/-- Under another name, with a forged role, another verb and a longer path, a caller gets no
further, whether or not the same request is let in. -/
theorem claims_make_no_difference_forgedRole :
    let ann : Principal := ⟨"ann", {"dev"}, ∅⟩
    let forger : Principal := ⟨"root", {"dev"}, {adminRole}⟩
    let plain (type : String) : AccessRequest := ⟨"/namespaces/team/" ++ type, some .get⟩
    let odd (type : String) : AccessRequest :=
      ⟨"/api/v 1/namespaces/team/" ++ type ++ "/t1/", some .delete⟩
    let engine : EngineConfig := ⟨"admins", false⟩
    let chain := [(engine, topicsForDevelopers), (engine, topicsForDevelopers)].map
      fun engine => Rule.ofEngine engine.1 engine.2
    let run (request : AccessRequest) (p : Principal) :=
      (engine.checkRequest request (some p)).run topicsForDevelopers ()
    ann.groups = forger.groups ∧ forger.isAdmin ∧
    (run (plain "topics") ann).SameButClaims (run (odd "topics") forger) ∧
    (run (odd "topics") forger).result = .ok .allowed ∧
    (run (plain "topics") ann).events ≠ (run (odd "topics") forger).events ∧
    (RuleChain.evaluate (odd "schemas") (some forger) chain (.start ())).1 = .ok .forbidden ∧
    ((engine.listCatalog (some ann)).run topicsForDevelopers ()).SameButClaims
      ((engine.listCatalog (some forger)).run topicsForDevelopers ()) := by
  intro ann forger plain odd engine chain run
  obtain ⟨hcheck, hlist⟩ := claims_make_no_difference (p := ann) (q := forger) (σ := Unit) rfl
  have hplain (type : String) (h : type = "topics" ∨ type = "schemas") :
      RequestPath.classify (plain type).path = some ⟨"team", type, none, none⟩ := by
    rcases h with rfl | rfl <;> decide +kernel
  have hodd (type : String) (h : type = "topics" ∨ type = "schemas") :
      RequestPath.classify (odd type).path = some ⟨"team", type, some "t1", none⟩ := by
    rcases h with rfl | rfl <;> decide +kernel
  obtain ⟨htopics, -⟩ := hcheck _ _ _ _ (hplain "topics" (.inl rfl)) (hodd "topics" (.inl rfl))
    ⟨rfl, rfl, rfl⟩
  obtain ⟨-, hschemas⟩ := hcheck _ _ _ _ (hplain "schemas" (.inr rfl)) (hodd "schemas" (.inr rfl))
    ⟨rfl, rfl, rfl⟩
  have hsame := htopics engine topicsForDevelopers () (.inr rfl)
  have hchain := hschemas [(engine, topicsForDevelopers), (engine, topicsForDevelopers)] (.start ())
    (.inr (by simp [engine]))
  refine ⟨rfl, by decide +kernel, hsame, ?_, by decide +kernel, ?_, hlist engine _ ()⟩
  · rw [← hsame.result]
    decide +kernel
  · rw [← hchain.1]
    decide +kernel

end sample

end NamespaceAccess
