import NamespaceAccess.Proofs.Recording

/-!
Which lookups a call makes, in which order and for whom, and that a lookup that fails ends the call.
-/
namespace NamespaceAccess

def Lookup.error? : Lookup → Option LookupError
  | namespaceNamed _ (.error e) | bindingsOf _ (.error e) => some e
  | _ => none

/-- After a lookup that fails there is no other, and its very error is what is told. -/
def FailsLast (told : LookupError → Prop) (lookups : List Lookup) : Prop :=
  ∀ lookup later, lookup :: later <:+ lookups → ∀ e, lookup.error? = some e → later = [] ∧ told e

/-- The lookups that a request may make: none without a caller or a classified path, else one for
the namespace, and one for the caller's bindings where the namespace exists and the caller is no
admin. -/
structure CheckDiscipline (config : EngineConfig) (request : AccessRequest)
    (principal : Option Principal) (lookups : List Lookup) (result : AccessResult) : Prop where
  silent_iff : lookups = [] ↔ principal = none ∨ RequestPath.classify request.path = none
  asks : ∀ p r, principal = some p → RequestPath.classify request.path = some r →
    ∃ found rest, lookups = .namespaceNamed r.namespaceName found :: rest ∧
      (rest = [] ∨ ∃ bound, rest = [.bindingsOf p.groups bound]) ∧
      (rest ≠ [] ↔ (∃ n, found = .ok (some n)) ∧ config.adminGroup ∉ p.groups)
  failsLast : FailsLast (fun e => result = .error (.lookupFailed e)) lookups

/-- Listings look no namespace up, and bindings only for callers outside the admin group. -/
structure ListingDiscipline (config : EngineConfig) (principal : Option Principal)
    (lookups : List Lookup) (result : Except LookupError (List ResourceDefinition)) : Prop where
  noNamespace : ∀ lookup ∈ lookups, lookup.isNamespaceLookup = false
  asks : ∀ p, principal = some p → config.adminGroup ∉ p.groups →
    ∃ bound, lookups = [.bindingsOf p.groups bound]
  silent : (∀ p, principal = some p → config.adminGroup ∈ p.groups) → lookups = []
  failsLast : FailsLast (fun e => result = .error e) lookups

section courses

variable {config : EngineConfig} {request : AccessRequest} {principal : Option Principal}
  {lookups : List Lookup}

theorem failsLast_nil {told : LookupError → Prop} : FailsLast told [] := by
  simp [FailsLast]

theorem failsLast_cons {told : LookupError → Prop} {lookup : Lookup} :
    FailsLast told (lookup :: lookups) ↔
      (∀ e, lookup.error? = some e → lookups = [] ∧ told e) ∧ FailsLast told lookups := by
  constructor
  · intro h
    exact ⟨h lookup lookups (List.suffix_refl _),
      fun _ _ hsuffix => h _ _ (hsuffix.trans (List.suffix_cons _ _))⟩
  · rintro ⟨hhead, htail⟩ other later hsuffix
    rcases List.suffix_cons_iff.mp hsuffix with heq | hsuffix
    · obtain ⟨rfl, rfl⟩ := List.cons.inj heq
      exact hhead
    · exact htail other later hsuffix

theorem CheckDiscipline.of_silent {result : AccessResult}
    (h : principal = none ∨ RequestPath.classify request.path = none) :
    CheckDiscipline config request principal [] result where
  silent_iff := by simpa using h
  asks p r hp hr := by simp [hp, hr] at h
  failsLast := failsLast_nil

theorem CheckDiscipline.of_asked {p : Principal} {r : ResourceRequest} {found : NamespaceAnswer}
    {rest : List Lookup} {result : AccessResult}
    (hpath : RequestPath.classify request.path = some r)
    (hrest : rest = [] ∨ ∃ bound, rest = [.bindingsOf p.groups bound])
    (hiff : rest ≠ [] ↔ (∃ n, found = .ok (some n)) ∧ config.adminGroup ∉ p.groups)
    (hfails : FailsLast (fun e => result = .error (.lookupFailed e))
      (.namespaceNamed r.namespaceName found :: rest)) :
    CheckDiscipline config request (some p) (.namespaceNamed r.namespaceName found :: rest)
      result where
  silent_iff := by simp [hpath]
  asks p' r' hp hr := by
    obtain rfl : p = p' := Option.some.inj hp
    obtain rfl : r = r' := Option.some.inj (hpath.symm.trans hr)
    exact ⟨found, rest, rfl, hrest, hiff⟩
  failsLast := hfails

theorem Course.checkDiscipline {j : Judgement} (h : Course config request principal lookups j) :
    CheckDiscipline config request principal lookups j.result := by
  cases h with
  | unauthenticated => exact .of_silent (.inl rfl)
  | unclassified hpath => exact .of_silent (.inr hpath)
  | namespaceFailed hpath =>
    refine .of_asked hpath (.inl rfl) (by simp) ?_
    simp [failsLast_cons, failsLast_nil, Lookup.error?, Judgement.result, Except.map]
  | namespaceMissing hpath =>
    refine .of_asked hpath (.inl rfl) (by simp) ?_
    simp [failsLast_cons, failsLast_nil, Lookup.error?]
  | admin hpath hadmin =>
    refine .of_asked hpath (.inl rfl) (by simp [hadmin]) ?_
    simp [failsLast_cons, failsLast_nil, Lookup.error?]
  | bindingsFailed hpath hadmin =>
    refine .of_asked hpath (.inr ⟨_, rfl⟩) (by simp [hadmin]) ?_
    simp [failsLast_cons, failsLast_nil, Lookup.error?, Judgement.result, Except.map]
  | noneApplies hpath hadmin | noneLists hpath hadmin | noneHasVerb hpath hadmin
  | granted hpath hadmin =>
    refine .of_asked hpath (.inr ⟨_, rfl⟩) (by simp [hadmin]) ?_
    simp [failsLast_cons, failsLast_nil, Lookup.error?]

theorem ListingCourse.listingDiscipline {events : List AuditEvent}
    {result : Except LookupError (List ResourceDefinition)}
    (h : ListingCourse config principal lookups events result) :
    ListingDiscipline config principal lookups result := by
  cases h with
  | anonymous =>
    exact ⟨by simp, by simp, fun _ => rfl, failsLast_nil⟩
  | admin hadmin =>
    exact ⟨by simp, by simp [hadmin], fun _ => rfl, failsLast_nil⟩
  | failed hadmin =>
    refine ⟨by simp [Lookup.isNamespaceLookup], by simp, by simp [hadmin], ?_⟩
    simp [failsLast_cons, failsLast_nil, Lookup.error?]
  | granted hadmin =>
    refine ⟨by simp [Lookup.isNamespaceLookup], by simp, by simp [hadmin], ?_⟩
    simp [failsLast_cons, failsLast_nil, Lookup.error?]

end courses

/-- Collaborators that answer as before and write down what they were asked and what they
answered. -/
def Collaborators.logged {σ : Type} (c : Collaborators σ) : Collaborators (σ × List Lookup) where
  findNamespace name s :=
    let (answer, state) := c.findNamespace name s.1
    (answer, (state, s.2 ++ [.namespaceNamed name answer]))
  findBindings groups s :=
    let (answer, state) := c.findBindings groups s.1
    (answer, (state, s.2 ++ [.bindingsOf groups answer]))

namespace Made

variable {σ : Type}

def lookups : Made σ → List Lookup
  | checked _ _ _ t => t.lookups
  | listed _ _ t => t.lookups

def Disciplined : Made σ → Prop
  | checked config request principal t =>
    CheckDiscipline config request principal t.lookups t.result
  | listed config principal t => ListingDiscipline config principal t.lookups t.result

end Made

section runs

variable {σ : Type} (c : Collaborators σ)

def Call.after (calls : List Call) (state : σ) : σ :=
  calls.foldl (fun state call => (call.make c state).state) state

theorem Dialogue.run_logged {α : Type} (d : Dialogue α) (state : σ) (log : List Lookup) :
    d.run c.logged (state, log) =
      { result := (d.run c state).result
        lookups := (d.run c state).lookups
        events := (d.run c state).events
        state := ((d.run c state).state, log ++ (d.run c state).lookups) } := by
  induction d generalizing state log with
  | done result => simp [run, Transcript.pure]
  | findNamespace name next ih =>
    simp only [run, Collaborators.logged] at ih ⊢
    rw [ih]
    simp [Transcript.withLookup]
  | findBindings groups next ih =>
    simp only [run, Collaborators.logged] at ih ⊢
    rw [ih]
    simp [Transcript.withLookup]
  | record event next ih => simp [run, ih, Transcript.withEvent]

theorem state_make_logged (call : Call) (state : σ) (log : List Lookup) :
    (call.make c.logged (state, log)).state =
      ((call.make c state).state, log ++ (call.make c state).lookups) := by
  cases call with
  | check config request principal =>
    exact congrArg Transcript.state (Dialogue.run_logged c _ state log)
  | list config principal =>
    exact congrArg Transcript.state (Dialogue.run_logged c _ state log)

theorem after_logged (calls : List Call) (state : σ) (log : List Lookup) :
    Call.after c.logged calls (state, log) =
      (Call.after c calls state, log ++ (Call.makeAll c calls state).flatMap Made.lookups) := by
  induction calls generalizing state log with
  | nil => simp [Call.after, Call.makeAll]
  | cons call calls ih =>
    simp only [Call.after, List.foldl_cons, state_make_logged] at ih ⊢
    rw [ih]
    simp [Call.makeAll]

theorem disciplined_make (call : Call) (state : σ) : (call.make c state).Disciplined := by
  cases call with
  | check config request principal =>
    obtain ⟨j, hcourse, hresult, -⟩ := Course.of_checkRequest c state config request principal
    simp only [Call.make, Made.Disciplined, hresult]
    exact hcourse.checkDiscipline
  | list config principal =>
    exact (ListingCourse.of_listCatalog c state config principal).listingDiscipline

/-- Over any run of calls the collaborators are asked what the transcripts say and nothing else. Each
call asks for no more than it needs, and stops at the first lookup that fails. -/
theorem lookups_disciplined (calls : List Call) (state : σ) :
    let made := Call.makeAll c calls state
    made.map Made.call = calls ∧
    (Call.after c.logged calls (state, [])).2 = made.flatMap Made.lookups ∧
    ∀ m ∈ made, m.Disciplined := by
  refine ⟨map_call_makeAll c calls state, ?_, fun m hm => ?_⟩
  · rw [after_logged, List.nil_append]
  · obtain ⟨call, reached, rfl⟩ := mem_makeAll c hm
    exact disciplined_make c call reached

end runs

section sample

def everySecondFails : Collaborators Nat where
  findNamespace name n :=
    (if n % 2 = 0 then .ok (some ⟨name, "c"⟩) else .error (.unavailable "store"), n + 1)
  findBindings _ n := (if n % 2 = 0 then .ok [] else .error (.corrupted "row"), n + 1)

theorem lookups_disciplined_everySecondFails :
    let ask : Call := .check ⟨"admins", true⟩ ⟨"/namespaces/team/topics", none⟩
      (some ⟨"ann", {"dev"}, ∅⟩)
    let calls := [ask, .list ⟨"admins", true⟩ (some ⟨"ann", {"dev"}, ∅⟩), ask]
    (∀ m ∈ Call.makeAll everySecondFails calls 0, m.Disciplined) ∧
    (Call.after everySecondFails.logged calls (0, [])).2.map
        (fun lookup => (lookup.isNamespaceLookup, lookup.error?)) =
      [(true, none), (false, some (.corrupted "row")), (false, none),
        (true, some (.unavailable "store"))] := by
  intro ask calls
  obtain ⟨-, -, hdisciplined⟩ := lookups_disciplined everySecondFails calls 0
  exact ⟨hdisciplined, by decide +kernel⟩

end sample

end NamespaceAccess
