import NamespaceAccess.Proofs.Answers

/-!
The courses that a request for access can take: which lookups are made, what they answer, and what is
judged from that; and those that a listing can take. Every call takes one of them, so what holds of
each course holds of each call.
-/
namespace NamespaceAccess

section bindings

variable {config : EngineConfig} {groups : GroupSet} {bindings : List RoleBinding}
  {r : ResourceRequest} {verb : Option Verb}

theorem judge_build_of_none_lists {b : RoleBinding} (hb : b ∈ bindings)
    (happlies : b.Applies r.namespaceName groups)
    (h : ∀ b ∈ bindings, ¬ b.Grants r.namespaceName groups r.grantToken none) :
    (GrantSet.build r.namespaceName groups bindings).judge config.enforceVerbs r verb =
      .ok ⟨.unknown, .grantMissing⟩ := by
  simp [GrantSet.judge, isEmpty_build_eq_false hb happlies, GrantSet.permits_build_eq_false h]

/-- The token is granted, so it is for want of the verb that nothing is. -/
theorem judge_build_of_none_has_verb {b : RoleBinding} (hb : b ∈ bindings)
    (hlists : b.Grants r.namespaceName groups r.grantToken none)
    (h : ∀ b ∈ bindings,
      ¬ b.Grants r.namespaceName groups r.grantToken (config.requiredVerb verb)) :
    (GrantSet.build r.namespaceName groups bindings).judge config.enforceVerbs r verb =
      .ok ⟨.unknown, .verbNotGranted⟩ := by
  have htoken := GrantSet.permits_build_iff.mpr ⟨b, hb, hlists⟩
  have hverb := GrantSet.permits_build_eq_false h
  unfold EngineConfig.requiredVerb at hverb
  simp [GrantSet.judge, isEmpty_build_eq_false hb hlists.1, htoken, hverb]

end bindings

/-- How a request is judged, with the lookups made on the way in their order. The courses differ in
how far they get: the caller, the path, the namespace, the admin group, the bindings. -/
inductive Course (config : EngineConfig) (request : AccessRequest) :
    Option Principal → List Lookup → Judgement → Prop where
  | unauthenticated : Course config request none [] (.ok ⟨.unknown, .unauthenticated⟩)
  | unclassified {p : Principal} (hpath : RequestPath.classify request.path = none) :
    Course config request (some p) [] (.ok ⟨.unknown, .unclassifiedPath⟩)
  | namespaceFailed {p : Principal} {r : ResourceRequest} {e : LookupError}
    (hpath : RequestPath.classify request.path = some r) :
    Course config request (some p) [.namespaceNamed r.namespaceName (.error e)]
      (.error (.lookupFailed e))
  | namespaceMissing {p : Principal} {r : ResourceRequest}
    (hpath : RequestPath.classify request.path = some r) :
    Course config request (some p) [.namespaceNamed r.namespaceName (.ok none)]
      (.error (.denied (.unknown r.namespaceName)))
  | admin {p : Principal} {r : ResourceRequest} {n : Namespace}
    (hpath : RequestPath.classify request.path = some r) (hadmin : config.adminGroup ∈ p.groups) :
    Course config request (some p) [.namespaceNamed r.namespaceName (.ok (some n))]
      (.ok ⟨.allowed, .admin⟩)
  | bindingsFailed {p : Principal} {r : ResourceRequest} {n : Namespace} {e : LookupError}
    (hpath : RequestPath.classify request.path = some r) (hadmin : config.adminGroup ∉ p.groups) :
    Course config request (some p)
      [.namespaceNamed r.namespaceName (.ok (some n)), .bindingsOf p.groups (.error e)]
      (.error (.lookupFailed e))
  | noneApplies {p : Principal} {r : ResourceRequest} {n : Namespace} {bindings : List RoleBinding}
    (hpath : RequestPath.classify request.path = some r) (hadmin : config.adminGroup ∉ p.groups)
    (happlies : ∀ b ∈ bindings, ¬ b.Applies r.namespaceName p.groups) :
    Course config request (some p)
      [.namespaceNamed r.namespaceName (.ok (some n)), .bindingsOf p.groups (.ok bindings)]
      (.error (.denied (.forbidden r.namespaceName)))
  | noneLists {p : Principal} {r : ResourceRequest} {n : Namespace} {bindings : List RoleBinding}
    (hpath : RequestPath.classify request.path = some r) (hadmin : config.adminGroup ∉ p.groups)
    (happlies : ∃ b ∈ bindings, b.Applies r.namespaceName p.groups)
    (hlists : ∀ b ∈ bindings, ¬ b.Grants r.namespaceName p.groups r.grantToken none) :
    Course config request (some p)
      [.namespaceNamed r.namespaceName (.ok (some n)), .bindingsOf p.groups (.ok bindings)]
      (.ok ⟨.unknown, .grantMissing⟩)
  | noneHasVerb {p : Principal} {r : ResourceRequest} {n : Namespace} {bindings : List RoleBinding}
    (hpath : RequestPath.classify request.path = some r) (hadmin : config.adminGroup ∉ p.groups)
    (hlists : ∃ b ∈ bindings, b.Grants r.namespaceName p.groups r.grantToken none)
    (hgrants : ∀ b ∈ bindings, ¬ b.Grants r.namespaceName p.groups r.grantToken
      (config.requiredVerb request.verb)) :
    Course config request (some p)
      [.namespaceNamed r.namespaceName (.ok (some n)), .bindingsOf p.groups (.ok bindings)]
      (.ok ⟨.unknown, .verbNotGranted⟩)
  | granted {p : Principal} {r : ResourceRequest} {n : Namespace} {bindings : List RoleBinding}
    (hpath : RequestPath.classify request.path = some r) (hadmin : config.adminGroup ∉ p.groups)
    (hgrants : ∃ b ∈ bindings, b.Grants r.namespaceName p.groups r.grantToken
      (config.requiredVerb request.verb)) :
    Course config request (some p)
      [.namespaceNamed r.namespaceName (.ok (some n)), .bindingsOf p.groups (.ok bindings)]
      (.ok ⟨.allowed, .grantMatched⟩)

namespace Course

variable {config : EngineConfig} {request : AccessRequest} {principal : Option Principal}
  {p : Principal} {r : ResourceRequest} {n : Namespace} {lookups : List Lookup} {j : Judgement}

/-- Once the bindings are there, they settle which of the last four courses is taken. -/
theorem of_bindings (hpath : RequestPath.classify request.path = some r)
    (hadmin : config.adminGroup ∉ p.groups) (bindings : List RoleBinding) :
    Course config request (some p)
      [.namespaceNamed r.namespaceName (.ok (some n)), .bindingsOf p.groups (.ok bindings)]
      ((GrantSet.build r.namespaceName p.groups bindings).judge config.enforceVerbs r
        request.verb) := by
  by_cases happlies : ∃ b ∈ bindings, b.Applies r.namespaceName p.groups
  case neg =>
    have hnone : ∀ b ∈ bindings, ¬ b.Applies r.namespaceName p.groups := by simpa using happlies
    rw [judge_build_of_none_applies hnone]
    exact noneApplies hpath hadmin hnone
  by_cases hlists : ∃ b ∈ bindings, b.Grants r.namespaceName p.groups r.grantToken none
  case neg =>
    have hnone : ∀ b ∈ bindings, ¬ b.Grants r.namespaceName p.groups r.grantToken none := by
      simpa using hlists
    obtain ⟨b, hb, happliesb⟩ := happlies
    rw [judge_build_of_none_lists hb happliesb hnone]
    exact noneLists hpath hadmin ⟨b, hb, happliesb⟩ hnone
  by_cases hgrants : ∃ b ∈ bindings, b.Grants r.namespaceName p.groups r.grantToken
      (config.requiredVerb request.verb)
  case neg =>
    have hnone : ∀ b ∈ bindings, ¬ b.Grants r.namespaceName p.groups r.grantToken
        (config.requiredVerb request.verb) := by simpa using hgrants
    obtain ⟨b, hb, hlistsb⟩ := hlists
    rw [judge_build_of_none_has_verb hb hlistsb hnone]
    exact noneHasVerb hpath hadmin ⟨b, hb, hlistsb⟩ hnone
  case pos =>
    obtain ⟨b, hb, hgrantsb⟩ := hgrants
    rw [judge_build_of_grants hb hgrantsb]
    exact granted hpath hadmin ⟨b, hb, hgrantsb⟩

variable {σ : Type} (c : Collaborators σ) (state : σ)

/-- Nothing is recorded before there is a judgement. -/
theorem of_judge (hpath : RequestPath.classify request.path = some r) :
    Course config request (some p) ((config.judge p r request.verb).run c state).lookups
        ((config.judge p r request.verb).run c state).result ∧
      ((config.judge p r request.verb).run c state).events = [] := by
  obtain ⟨⟨found, next⟩, hfound⟩ : ∃ answer, c.findNamespace r.namespaceName state = answer :=
    ⟨_, rfl⟩
  simp only [EngineConfig.judge, Dialogue.run, hfound]
  cases found with
  | error e => exact ⟨namespaceFailed hpath, rfl⟩
  | ok found =>
    cases found with
    | none => exact ⟨namespaceMissing hpath, rfl⟩
    | some n =>
      by_cases hadmin : config.adminGroup ∈ p.groups
      · simp only [EngineConfig.isAdmin_iff, hadmin, if_true]
        exact ⟨admin hpath hadmin, rfl⟩
      · obtain ⟨⟨bound, last⟩, hbound⟩ : ∃ answer, c.findBindings p.groups next = answer :=
          ⟨_, rfl⟩
        simp only [EngineConfig.isAdmin_iff, hadmin, if_false, Dialogue.run, hbound]
        cases bound with
        | error e => exact ⟨bindingsFailed hpath hadmin, rfl⟩
        | ok bindings => exact ⟨of_bindings hpath hadmin bindings, rfl⟩

theorem of_judgement (config : EngineConfig) (request : AccessRequest)
    (principal : Option Principal) :
    Course config request principal ((config.judgement request principal).run c state).lookups
        ((config.judgement request principal).run c state).result ∧
      ((config.judgement request principal).run c state).events = [] := by
  cases principal with
  | none => exact ⟨unauthenticated, rfl⟩
  | some p =>
    cases hpath : RequestPath.classify request.path with
    | none =>
      simp only [EngineConfig.judgement, AccessRequest.parsedFor, Option.bind_some, hpath]
      exact ⟨unclassified hpath, rfl⟩
    | some r =>
      simp only [EngineConfig.judgement, AccessRequest.parsedFor, Option.bind_some, hpath]
      exact of_judge c state hpath

/-- A call takes one course, returns what it was judged and records that and nothing else. -/
theorem of_checkRequest (config : EngineConfig) (request : AccessRequest)
    (principal : Option Principal) :
    ∃ j, Course config request principal
        ((config.checkRequest request principal).run c state).lookups j ∧
      ((config.checkRequest request principal).run c state).result = j.result ∧
      ((config.checkRequest request principal).run c state).events =
        [.decision (request.event principal j)] := by
  obtain ⟨hcourse, hevents⟩ := of_judgement c state config request principal
  rw [EngineConfig.run_checkRequest]
  exact ⟨_, hcourse, rfl, by simp [hevents]⟩

end Course

/-- How the catalog is listed, with the lookups made, the events recorded and what is returned. A
listing that fails leaves no event. -/
inductive ListingCourse (config : EngineConfig) : Option Principal → List Lookup →
    List AuditEvent → Except LookupError (List ResourceDefinition) → Prop where
  | anonymous : ListingCourse config none []
      [.listing ⟨none, .anonymous, Catalog.all.map ResourceDefinition.path⟩] (.ok Catalog.all)
  | admin {p : Principal} (hadmin : config.adminGroup ∈ p.groups) :
    ListingCourse config (some p) []
      [.listing ⟨some p.username, .admin, Catalog.all.map ResourceDefinition.path⟩]
      (.ok Catalog.all)
  | failed {p : Principal} {e : LookupError} (hadmin : config.adminGroup ∉ p.groups) :
    ListingCourse config (some p) [.bindingsOf p.groups (.error e)] [] (.error e)
  | granted {p : Principal} {bindings : List RoleBinding} {visible : List ResourceDefinition}
    (hadmin : config.adminGroup ∉ p.groups)
    (hvisible : visible = Catalog.withPaths (GrantSet.unscopedTokens p.groups bindings)) :
    ListingCourse config (some p) [.bindingsOf p.groups (.ok bindings)]
      [.listing ⟨some p.username, .granted, visible.map ResourceDefinition.path⟩] (.ok visible)

theorem ListingCourse.of_listCatalog {σ : Type} (c : Collaborators σ) (state : σ)
    (config : EngineConfig) (principal : Option Principal) :
    ListingCourse config principal ((config.listCatalog principal).run c state).lookups
      ((config.listCatalog principal).run c state).events
      ((config.listCatalog principal).run c state).result := by
  cases principal with
  | none => exact anonymous
  | some p =>
    by_cases hadmin : config.adminGroup ∈ p.groups
    · simp only [EngineConfig.listCatalog, EngineConfig.isAdmin_iff, hadmin, if_true]
      exact admin hadmin
    · obtain ⟨⟨bound, last⟩, hbound⟩ : ∃ answer, c.findBindings p.groups state = answer := ⟨_, rfl⟩
      simp only [EngineConfig.listCatalog, EngineConfig.isAdmin_iff, hadmin, if_false, Dialogue.run,
        hbound]
      cases bound with
      | error e => exact failed hadmin
      | ok bindings => exact granted hadmin rfl

end NamespaceAccess
