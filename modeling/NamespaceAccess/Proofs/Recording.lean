import NamespaceAccess.Proofs.Courses
import Mathlib.Data.List.Forall2

/-!
What is recorded of requests: one event for each call, which says whose call it was, what was asked,
what became of it and why.
-/
namespace NamespaceAccess

theorem EngineConfig.requiredVerb_eq_some_iff {config : EngineConfig} {verb : Option Verb}
    {v : Verb} : config.requiredVerb verb = some v ↔ config.enforceVerbs ∧ verb = some v := by
  unfold EngineConfig.requiredVerb
  split <;> simp_all

/-- The lookup of bindings was made for this caller and this request, and it answered. -/
structure Given (request : AccessRequest) (principal : Option Principal) (lookups : List Lookup)
    (p : Principal) (r : ResourceRequest) (bindings : List RoleBinding) : Prop where
  principal_eq : principal = some p
  classified : RequestPath.classify request.path = some r
  answered : .bindingsOf p.groups (.ok bindings) ∈ lookups

namespace Course

variable {config : EngineConfig} {request : AccessRequest} {principal : Option Principal}
  {lookups : List Lookup} {j : Judgement}

section given

variable {p : Principal} {r : ResourceRequest} {bindings : List RoleBinding}

/-- A call is given bindings at most once, so there is only one way to take them. -/
theorem exists_given_iff {name : String} {found : NamespaceAnswer}
    {P : Principal → ResourceRequest → List RoleBinding → Prop}
    (hpath : RequestPath.classify request.path = some r) :
    (∃ p' r' bindings', Given request (some p)
      [.namespaceNamed name found, .bindingsOf p.groups (.ok bindings)] p' r' bindings' ∧
        P p' r' bindings') ↔ P p r bindings := by
  constructor
  · rintro ⟨p', r', bindings', ⟨hp, hr, hanswered⟩, h⟩
    obtain rfl : p = p' := Option.some.inj hp
    obtain rfl : r = r' := Option.some.inj (hpath.symm.trans hr)
    obtain rfl : bindings' = bindings := by simpa using hanswered
    exact h
  · exact fun h => ⟨p, r, bindings, ⟨rfl, hpath, by simp⟩, h⟩

theorem not_given (h : ∀ groups bindings, .bindingsOf groups (.ok bindings) ∉ lookups) :
    ¬ Given request principal lookups p r bindings :=
  fun hgiven => h _ _ hgiven.answered

end given

theorem reason_eq_unauthenticated_iff (h : Course config request principal lookups j) :
    j.reason = "unauthenticated" ↔ principal = none := by
  cases h <;> simp [Judgement.reason, Ground.label, AccessError.label, NamespaceDenial.reason]

theorem reason_eq_unclassifiedPath_iff (h : Course config request principal lookups j) :
    j.reason = "unclassified_path" ↔
      principal.isSome ∧ RequestPath.classify request.path = none := by
  cases h <;> simp [Judgement.reason, Ground.label, AccessError.label, NamespaceDenial.reason, *]

theorem reason_eq_admin_iff (h : Course config request principal lookups j) :
    j.reason = "admin" ↔
      j.result = .ok .allowed ∧ ∃ p ∈ principal, config.adminGroup ∈ p.groups := by
  cases h <;> simp [Judgement.reason, Judgement.result, Except.map, Ground.label, AccessError.label,
    NamespaceDenial.reason, *]

theorem reason_eq_grantMatched_iff (h : Course config request principal lookups j) :
    j.reason = "grant_matched" ↔
      j.result = .ok .allowed ∧ ∀ p ∈ principal, config.adminGroup ∉ p.groups := by
  cases h <;> simp [Judgement.reason, Judgement.result, Except.map, Ground.label, AccessError.label,
    NamespaceDenial.reason, *]

theorem reason_eq_unknownNamespace_iff (h : Course config request principal lookups j) :
    j.reason = "unknown_namespace" ↔ ∃ name, .namespaceNamed name (.ok none) ∈ lookups := by
  cases h <;> simp [Judgement.reason, Ground.label, AccessError.label, NamespaceDenial.reason]

theorem reason_eq_lookupError_iff (h : Course config request principal lookups j) :
    j.reason = "lookup_error" ↔ ∃ e, (∃ name, .namespaceNamed name (.error e) ∈ lookups) ∨
      ∃ groups, .bindingsOf groups (.error e) ∈ lookups := by
  cases h <;> simp [Judgement.reason, Ground.label, AccessError.label, NamespaceDenial.reason]

theorem reason_eq_forbiddenNamespace_iff (h : Course config request principal lookups j) :
    j.reason = "forbidden_namespace" ↔ ∃ p r bindings,
      Given request principal lookups p r bindings ∧
        ∀ b ∈ bindings, ¬ b.Applies r.namespaceName p.groups := by
  cases h with
  | noneApplies hpath hadmin happlies =>
    rw [exists_given_iff hpath]
    exact iff_of_true rfl happlies
  | noneLists hpath hadmin happlies hlists =>
    rw [exists_given_iff hpath]
    obtain ⟨b, hb, h⟩ := happlies
    exact iff_of_false (by decide) fun hnone => hnone b hb h
  | noneHasVerb hpath hadmin hlists hgrants =>
    rw [exists_given_iff hpath]
    obtain ⟨b, hb, h⟩ := hlists
    exact iff_of_false (by decide) fun hnone => hnone b hb h.1
  | granted hpath hadmin hgrants =>
    rw [exists_given_iff hpath]
    obtain ⟨b, hb, h⟩ := hgrants
    exact iff_of_false (by decide) fun hnone => hnone b hb h.1
  | _ => simp [not_given, Judgement.reason, Ground.label, AccessError.label, NamespaceDenial.reason]

theorem reason_eq_grantMissing_iff (h : Course config request principal lookups j) :
    j.reason = "grant_missing" ↔ ∃ p r bindings,
      Given request principal lookups p r bindings ∧
        (∃ b ∈ bindings, b.Applies r.namespaceName p.groups) ∧
        ∀ b ∈ bindings, ¬ b.Grants r.namespaceName p.groups r.grantToken none := by
  cases h with
  | noneApplies hpath hadmin happlies =>
    rw [exists_given_iff hpath]
    exact iff_of_false (by simp [Judgement.reason, AccessError.label, NamespaceDenial.reason])
      fun ⟨⟨b, hb, h⟩, _⟩ => happlies b hb h
  | noneLists hpath hadmin happlies hlists =>
    rw [exists_given_iff hpath]
    exact iff_of_true rfl ⟨happlies, hlists⟩
  | noneHasVerb hpath hadmin hlists hgrants =>
    rw [exists_given_iff hpath]
    obtain ⟨b, hb, h⟩ := hlists
    exact iff_of_false (by decide) fun hnone => hnone.2 b hb h
  | granted hpath hadmin hgrants =>
    rw [exists_given_iff hpath]
    obtain ⟨b, hb, h⟩ := hgrants
    exact iff_of_false (by decide) fun hnone => hnone.2 b hb h.without_verb
  | _ => simp [not_given, Judgement.reason, Ground.label, AccessError.label, NamespaceDenial.reason]

/-- Only where verbs are enforced can the verb of a request be missing. -/
theorem reason_eq_verbNotGranted_iff (h : Course config request principal lookups j) :
    j.reason = "verb_not_granted" ↔ ∃ p r bindings,
      Given request principal lookups p r bindings ∧
        (∃ b ∈ bindings, b.Grants r.namespaceName p.groups r.grantToken none) ∧
        config.enforceVerbs ∧ ∃ v, request.verb = some v ∧
          ∀ b ∈ bindings, ¬ b.Grants r.namespaceName p.groups r.grantToken (some v) := by
  cases h with
  | noneApplies hpath hadmin happlies =>
    rw [exists_given_iff hpath]
    exact iff_of_false (by simp [Judgement.reason, AccessError.label, NamespaceDenial.reason])
      fun ⟨⟨b, hb, h⟩, _⟩ => happlies b hb h.1
  | noneLists hpath hadmin happlies hlists =>
    rw [exists_given_iff hpath]
    exact iff_of_false (by decide) fun ⟨⟨b, hb, h⟩, _⟩ => hlists b hb h
  | noneHasVerb hpath hadmin hlists hgrants =>
    rw [exists_given_iff hpath]
    refine iff_of_true rfl ⟨hlists, ?_⟩
    cases hverb : config.requiredVerb request.verb with
    | none =>
      obtain ⟨b, hb, h⟩ := hlists
      rw [hverb] at hgrants
      exact absurd h (hgrants b hb)
    | some v =>
      rw [hverb] at hgrants
      obtain ⟨henforced, hcarried⟩ := EngineConfig.requiredVerb_eq_some_iff.mp hverb
      exact ⟨henforced, v, hcarried, hgrants⟩
  | granted hpath hadmin hgrants =>
    rw [exists_given_iff hpath]
    refine iff_of_false (by decide) ?_
    rintro ⟨-, henforced, v, hcarried, hnone⟩
    rw [EngineConfig.requiredVerb_eq_some_iff.mpr ⟨henforced, hcarried⟩] at hgrants
    obtain ⟨b, hb, h⟩ := hgrants
    exact hnone b hb h
  | _ => simp [not_given, Judgement.reason, Ground.label, AccessError.label, NamespaceDenial.reason]

end Course

namespace DecisionEvent

/-- The outcome is the label of what the caller was told, and no caller is told that access is
forbidden as such. -/
def NamesOutcome (e : DecisionEvent) : AccessResult → Prop
  | .ok .allowed => e.outcome = "allowed"
  | .ok .unknown => e.outcome = "unknown"
  | .ok .forbidden => False
  | .error (.denied (.unknown _)) => e.outcome = "unknown_namespace"
  | .error (.denied (.forbidden _)) => e.outcome = "forbidden_namespace"
  | .error (.lookupFailed _) => e.outcome = "lookup_error"

/-- The reason is one of nine, each of which stands for one cause and for no other. -/
structure NamesCause (e : DecisionEvent) (config : EngineConfig) (request : AccessRequest)
    (principal : Option Principal) (lookups : List Lookup) (result : AccessResult) : Prop where
  unauthenticated : e.reason = "unauthenticated" ↔ principal = none
  unclassifiedPath : e.reason = "unclassified_path" ↔
    principal.isSome ∧ RequestPath.classify request.path = none
  admin : e.reason = "admin" ↔
    result = .ok .allowed ∧ ∃ p ∈ principal, config.adminGroup ∈ p.groups
  grantMatched : e.reason = "grant_matched" ↔
    result = .ok .allowed ∧ ∀ p ∈ principal, config.adminGroup ∉ p.groups
  unknownNamespace : e.reason = "unknown_namespace" ↔
    ∃ name, .namespaceNamed name (.ok none) ∈ lookups
  lookupError : e.reason = "lookup_error" ↔
    ∃ error, (∃ name, .namespaceNamed name (.error error) ∈ lookups) ∨
      ∃ groups, .bindingsOf groups (.error error) ∈ lookups
  forbiddenNamespace : e.reason = "forbidden_namespace" ↔ ∃ p r bindings,
    Given request principal lookups p r bindings ∧
      ∀ b ∈ bindings, ¬ b.Applies r.namespaceName p.groups
  grantMissing : e.reason = "grant_missing" ↔ ∃ p r bindings,
    Given request principal lookups p r bindings ∧
      (∃ b ∈ bindings, b.Applies r.namespaceName p.groups) ∧
      ∀ b ∈ bindings, ¬ b.Grants r.namespaceName p.groups r.grantToken none
  verbNotGranted : e.reason = "verb_not_granted" ↔ ∃ p r bindings,
    Given request principal lookups p r bindings ∧
      (∃ b ∈ bindings, b.Grants r.namespaceName p.groups r.grantToken none) ∧
      config.enforceVerbs ∧ ∃ v, request.verb = some v ∧
        ∀ b ∈ bindings, ¬ b.Grants r.namespaceName p.groups r.grantToken (some v)

structure Faithful (e : DecisionEvent) (config : EngineConfig) (request : AccessRequest)
    (principal : Option Principal) (lookups : List Lookup) (result : AccessResult) : Prop where
  path : e.path = request.path
  verb : e.verb = request.verb
  username : e.username = principal.map Principal.username
  parsed : ∀ r, principal.isSome → RequestPath.classify request.path = some r →
    e.namespaceName = some r.namespaceName ∧ e.resourceType = some r.resourceType ∧
      e.resourceName = r.resourceName ∧ e.subAction = r.subAction
  unparsed : principal = none ∨ RequestPath.classify request.path = none →
    e.namespaceName = none ∧ e.resourceType = none ∧ e.resourceName = none ∧ e.subAction = none
  outcome : e.NamesOutcome result
  notForbidden : e.outcome ≠ "forbidden"
  cause : e.NamesCause config request principal lookups result

end DecisionEvent

namespace AccessRequest

variable {request : AccessRequest} {principal : Option Principal} {r : ResourceRequest}

theorem parsedFor_of_classified (hprincipal : principal.isSome)
    (hpath : RequestPath.classify request.path = some r) :
    request.parsedFor principal = some r := by
  obtain ⟨p, rfl⟩ := Option.isSome_iff_exists.mp hprincipal
  exact hpath

theorem parsedFor_eq_none (h : principal = none ∨ RequestPath.classify request.path = none) :
    request.parsedFor principal = none := by
  rcases h with rfl | hpath
  · rfl
  · cases principal with
    | none => rfl
    | some p => exact hpath

end AccessRequest

namespace Course

variable {config : EngineConfig} {request : AccessRequest} {principal : Option Principal}
  {lookups : List Lookup} {j : Judgement}

theorem namesOutcome (h : Course config request principal lookups j) :
    (request.event principal j).NamesOutcome j.result := by
  cases h <;> rfl

theorem namesCause (h : Course config request principal lookups j) :
    (request.event principal j).NamesCause config request principal lookups j.result where
  unauthenticated := h.reason_eq_unauthenticated_iff
  unclassifiedPath := h.reason_eq_unclassifiedPath_iff
  admin := h.reason_eq_admin_iff
  grantMatched := h.reason_eq_grantMatched_iff
  unknownNamespace := h.reason_eq_unknownNamespace_iff
  lookupError := h.reason_eq_lookupError_iff
  forbiddenNamespace := h.reason_eq_forbiddenNamespace_iff
  grantMissing := h.reason_eq_grantMissing_iff
  verbNotGranted := h.reason_eq_verbNotGranted_iff

theorem faithful (h : Course config request principal lookups j) :
    (request.event principal j).Faithful config request principal lookups j.result where
  path := rfl
  verb := rfl
  username := rfl
  parsed r hprincipal hpath := by
    simp [AccessRequest.event, AccessRequest.parsedFor_of_classified hprincipal hpath]
  unparsed hnone := by
    simp [AccessRequest.event, AccessRequest.parsedFor_eq_none hnone]
  outcome := h.namesOutcome
  notForbidden := by
    cases h <;> simp [AccessRequest.event, outcomeLabel, Judgement.result, Except.map,
      Decision.label, AccessError.label, NamespaceDenial.reason]
  cause := h.namesCause

end Course

inductive Call where
  | check (config : EngineConfig) (request : AccessRequest) (principal : Option Principal)
  | list (config : EngineConfig) (principal : Option Principal)

inductive Made (σ : Type) where
  | checked (config : EngineConfig) (request : AccessRequest) (principal : Option Principal)
    (t : Transcript σ AccessResult)
  | listed (config : EngineConfig) (principal : Option Principal)
    (t : Transcript σ (Except LookupError (List ResourceDefinition)))

namespace Made

variable {σ : Type}

def call : Made σ → Call
  | checked config request principal _ => .check config request principal
  | listed config principal _ => .list config principal

def events : Made σ → List AuditEvent
  | checked _ _ _ t => t.events
  | listed _ _ t => t.events

def state : Made σ → σ
  | checked _ _ _ t => t.state
  | listed _ _ t => t.state

def isCheck : Made σ → Bool
  | checked .. => true
  | listed .. => false

/-- Listings are no decisions, so no decision is recorded of them. -/
def RecordedAs : Made σ → DecisionEvent → Prop
  | checked config request principal t, e =>
    e.Faithful config request principal t.lookups t.result
  | listed .., _ => False

end Made

namespace Call

variable {σ : Type}

def make (c : Collaborators σ) (state : σ) : Call → Made σ
  | check config request principal =>
    .checked config request principal ((config.checkRequest request principal).run c state)
  | list config principal => .listed config principal ((config.listCatalog principal).run c state)

/-- Each call finds the collaborators as the one before it left them. -/
def makeAll (c : Collaborators σ) : List Call → σ → List (Made σ)
  | [], _ => []
  | call :: calls, state => call.make c state :: makeAll c calls (call.make c state).state

end Call

def sink {σ : Type} (made : List (Made σ)) : List AuditEvent := made.flatMap Made.events

def AuditEvent.decision? : AuditEvent → Option DecisionEvent
  | .decision e => some e
  | .listing _ => none

section runs

variable {σ : Type} (c : Collaborators σ)

theorem decisions_listCatalog (config : EngineConfig) (principal : Option Principal) (state : σ) :
    ((config.listCatalog principal).run c state).events.filterMap AuditEvent.decision? = [] := by
  cases principal with
  | none => rfl
  | some p =>
    unfold EngineConfig.listCatalog
    simp only
    split
    · rfl
    · simp only [Dialogue.run, Transcript.withLookup]
      split <;> rfl

theorem make_recordedAs (state : σ) (call : Call) (h : (call.make c state).isCheck) :
    ∃ e, (call.make c state).events = [.decision e] ∧ (call.make c state).RecordedAs e := by
  cases call with
  | check config request principal =>
    obtain ⟨j, hcourse, hresult, hevents⟩ := Course.of_checkRequest c state config request principal
    refine ⟨_, hevents, ?_⟩
    simp only [Call.make, Made.RecordedAs, hresult]
    exact hcourse.faithful
  | list config principal => contradiction

theorem decisions_make_list (state : σ) (call : Call) (h : (call.make c state).isCheck = false) :
    (call.make c state).events.filterMap AuditEvent.decision? = [] := by
  cases call with
  | check config request principal => contradiction
  | list config principal => exact decisions_listCatalog c config principal state

theorem map_call_makeAll (calls : List Call) (state : σ) :
    (Call.makeAll c calls state).map Made.call = calls := by
  induction calls generalizing state with
  | nil => rfl
  | cons call calls ih =>
    rw [Call.makeAll, List.map_cons, ih]
    cases call <;> rfl

theorem mem_makeAll {calls : List Call} {state : σ} {m : Made σ}
    (h : m ∈ Call.makeAll c calls state) : ∃ call reached, m = Call.make c reached call := by
  induction calls generalizing state with
  | nil => simp [Call.makeAll] at h
  | cons call calls ih =>
    rcases List.mem_cons.mp h with rfl | h
    · exact ⟨call, state, rfl⟩
    · exact ih h

/-- Where each call of some kind leaves one event of a kind, and no other call leaves any, calls and
events match in their order. -/
theorem forall₂_sink_makeAll {β : Type} {kind : Made σ → Bool} {view : AuditEvent → Option β}
    {R : Made σ → β → Prop}
    (hone : ∀ state call, kind (Call.make c state call) →
      ∃ e, (Call.make c state call).events.filterMap view = [e] ∧ R (Call.make c state call) e)
    (hnone : ∀ state call, kind (Call.make c state call) = false →
      (Call.make c state call).events.filterMap view = [])
    (calls : List Call) (state : σ) :
    List.Forall₂ R ((Call.makeAll c calls state).filter kind)
      ((sink (Call.makeAll c calls state)).filterMap view) := by
  induction calls generalizing state with
  | nil => exact .nil
  | cons call calls ih =>
    simp only [Call.makeAll, sink, List.flatMap_cons, List.filterMap_append, List.filter_cons]
    split
    next hkind =>
      obtain ⟨e, hevents, he⟩ := hone state call hkind
      rw [hevents]
      exact .cons he (ih _)
    next hother =>
      rw [hnone state call (Bool.eq_false_iff.mpr hother)]
      exact ih _

theorem forall₂_recordedAs (calls : List Call) (state : σ) :
    List.Forall₂ Made.RecordedAs ((Call.makeAll c calls state).filter Made.isCheck)
      ((sink (Call.makeAll c calls state)).filterMap AuditEvent.decision?) := by
  refine forall₂_sink_makeAll c (fun reached call hcheck => ?_) (decisions_make_list c) calls state
  obtain ⟨e, hevents, hrecorded⟩ := make_recordedAs c reached call hcheck
  exact ⟨e, by rw [hevents]; rfl, hrecorded⟩

/-- Over any run of calls, each request leaves one event in the sink, in the order of the calls, and
the event is true of its call. -/
theorem requests_recorded_faithfully (calls : List Call) (state : σ) :
    let made := Call.makeAll c calls state
    made.map Made.call = calls ∧
    (∀ m ∈ made, m.isCheck → ∃ e, m.events = [.decision e] ∧ m.RecordedAs e) ∧
    List.Forall₂ Made.RecordedAs (made.filter Made.isCheck)
      ((sink made).filterMap AuditEvent.decision?) := by
  refine ⟨map_call_makeAll c calls state, ?_, forall₂_recordedAs c calls state⟩
  intro m hm hcheck
  obtain ⟨call, reached, rfl⟩ := mem_makeAll c hm
  exact make_recordedAs c reached call hcheck

end runs

section sample

def partlyFailing : Collaborators Unit where
  findNamespace name _ :=
    (if name = "down" then .error (.unavailable "store") else .ok (some ⟨name, "c"⟩), ())
  findBindings _ _ := (.ok [], ())

def sampleCalls : List Call :=
  [.check ⟨"admins", true⟩ ⟨"/namespaces/team/topics", some .get⟩ none,
    .list ⟨"admins", true⟩ none,
    .check ⟨"admins", true⟩ ⟨"/namespaces/down/topics", none⟩ (some ⟨"ann", {"dev"}, ∅⟩),
    .check ⟨"admins", true⟩ ⟨"/namespaces/team/topics", none⟩ (some ⟨"ann", {"dev"}, ∅⟩)]

theorem requests_recorded_faithfully_partlyFailing :
    let made := Call.makeAll partlyFailing sampleCalls ()
    (∀ m ∈ made.filter Made.isCheck, ∃ e, m.events = [.decision e] ∧ m.RecordedAs e) ∧
    ((sink made).filterMap AuditEvent.decision?).map (fun e => (e.namespaceName, e.reason)) =
      [(none, "unauthenticated"), (some "down", "lookup_error"),
        (some "team", "forbidden_namespace")] := by
  intro made
  refine ⟨fun m hm => ?_, by decide +kernel⟩
  obtain ⟨hmade, hcheck⟩ := List.mem_filter.mp hm
  exact (requests_recorded_faithfully partlyFailing sampleCalls ()).2.1 m hmade hcheck

end sample

end NamespaceAccess
