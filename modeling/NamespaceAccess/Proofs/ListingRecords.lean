import NamespaceAccess.Proofs.Lookups

/-!
What is recorded of listings: one event for each that returns, which says whose it was and what it
showed, and none for those whose lookup fails.
-/
namespace NamespaceAccess

structure ListingEvent.Faithful (e : ListingEvent) (config : EngineConfig)
    (principal : Option Principal) (entries : List ResourceDefinition) : Prop where
  username : e.username = principal.map Principal.username
  anonymous : e.scope.label = "anonymous" ↔ principal = none
  admin : e.scope.label = "admin" ↔ ∃ p ∈ principal, config.adminGroup ∈ p.groups
  granted : e.scope.label = "granted" ↔ ∃ p ∈ principal, config.adminGroup ∉ p.groups
  visible : e.visible = entries.map ResourceDefinition.path

namespace ListingCourse

variable {config : EngineConfig} {principal : Option Principal} {lookups : List Lookup}
  {events : List AuditEvent}

theorem recorded {entries : List ResourceDefinition}
    (h : ListingCourse config principal lookups events (.ok entries)) :
    ∃ e : ListingEvent, events = [.listing e] ∧ e.Faithful config principal entries := by
  cases h with
  | anonymous =>
    exact ⟨_, rfl, rfl, by simp [ListingScope.label], by simp [ListingScope.label],
      by simp [ListingScope.label], rfl⟩
  | admin hadmin =>
    exact ⟨_, rfl, rfl, by simp [ListingScope.label], by simp [ListingScope.label, hadmin],
      by simp [ListingScope.label, hadmin], rfl⟩
  | granted hadmin =>
    exact ⟨_, rfl, rfl, by simp [ListingScope.label], by simp [ListingScope.label, hadmin],
      by simp [ListingScope.label, hadmin], rfl⟩

theorem unrecorded {error : LookupError}
    (h : ListingCourse config principal lookups events (.error error)) :
    events = [] ∧ ∃ groups, lookups = [.bindingsOf groups (.error error)] := by
  cases h with
  | failed hadmin => exact ⟨rfl, _, rfl⟩

end ListingCourse

namespace Made

variable {σ : Type}

def showsEntries : Made σ → Bool
  | checked .. => false
  | listed _ _ t => t.result.isOk

/-- Requests are no listings, so no listing is recorded of them. -/
def ListedAs : Made σ → ListingEvent → Prop
  | checked .., _ => False
  | listed config principal t, e =>
    ∃ entries, t.result = .ok entries ∧ e.Faithful config principal entries

end Made

def AuditEvent.listing? : AuditEvent → Option ListingEvent
  | .decision _ => none
  | .listing e => some e

section runs

variable {σ : Type} (c : Collaborators σ)

theorem make_listedAs (state : σ) (call : Call) (h : (call.make c state).showsEntries) :
    ∃ e, (call.make c state).events = [.listing e] ∧ (call.make c state).ListedAs e := by
  cases call with
  | check config request principal => contradiction
  | list config principal =>
    have hcourse := ListingCourse.of_listCatalog c state config principal
    simp only [Call.make, Made.showsEntries, Made.events, Made.ListedAs] at h ⊢
    cases hresult : ((config.listCatalog principal).run c state).result with
    | error error => simp [hresult, Except.isOk, Except.toBool] at h
    | ok entries =>
      rw [hresult] at hcourse
      obtain ⟨e, hevents, hfaithful⟩ := hcourse.recorded
      exact ⟨e, hevents, entries, rfl, hfaithful⟩

/-- A listing that shows nothing has failed at its lookup, and left before it was recorded. -/
theorem make_unrecorded (state : σ) (call : Call) (hlist : (call.make c state).isCheck = false)
    (h : (call.make c state).showsEntries = false) :
    (call.make c state).events = [] ∧
      ∃ groups error, (call.make c state).lookups = [.bindingsOf groups (.error error)] := by
  cases call with
  | check config request principal => contradiction
  | list config principal =>
    have hcourse := ListingCourse.of_listCatalog c state config principal
    simp only [Call.make, Made.showsEntries, Made.events, Made.lookups] at h ⊢
    cases hresult : ((config.listCatalog principal).run c state).result with
    | ok entries => simp [hresult, Except.isOk, Except.toBool] at h
    | error error =>
      rw [hresult] at hcourse
      obtain ⟨hevents, groups, hlookups⟩ := hcourse.unrecorded
      exact ⟨hevents, groups, error, hlookups⟩

theorem listings_make_of_shows_none (state : σ) (call : Call)
    (h : (call.make c state).showsEntries = false) :
    (call.make c state).events.filterMap AuditEvent.listing? = [] := by
  cases call with
  | check config request principal =>
    obtain ⟨j, -, -, hevents⟩ := Course.of_checkRequest c state config request principal
    simp only [Call.make, Made.events, hevents]
    rfl
  | list config principal => rw [(make_unrecorded c state _ rfl h).1, List.filterMap_nil]

/-- Over any run of calls, each listing that returns leaves one event in the sink, in the order of
the calls, and the event is true of its call. The others have failed at their one lookup, and leave
none. -/
theorem listings_recorded_unless_failed (calls : List Call) (state : σ) :
    let made := Call.makeAll c calls state
    made.map Made.call = calls ∧
    (∀ m ∈ made, m.isCheck = false →
      (m.showsEntries → ∃ e, m.events = [.listing e] ∧ m.ListedAs e) ∧
      (m.showsEntries = false →
        m.events = [] ∧ ∃ groups error, m.lookups = [.bindingsOf groups (.error error)])) ∧
    List.Forall₂ Made.ListedAs (made.filter Made.showsEntries)
      ((sink made).filterMap AuditEvent.listing?) := by
  refine ⟨map_call_makeAll c calls state, fun m hm hlist => ?_, ?_⟩
  · obtain ⟨call, reached, rfl⟩ := mem_makeAll c hm
    exact ⟨make_listedAs c reached call, make_unrecorded c reached call hlist⟩
  · refine forall₂_sink_makeAll c (fun reached call hshows => ?_) (listings_make_of_shows_none c)
      calls state
    obtain ⟨e, hevents, hlisted⟩ := make_listedAs c reached call hshows
    exact ⟨e, by rw [hevents]; rfl, hlisted⟩

end runs

section sample

def bindingsDown : Collaborators Unit where
  findNamespace name _ := (.ok (some ⟨name, "c"⟩), ())
  findBindings _ _ := (.error (.unavailable "store"), ())

/-- A developer's listing fails, and nothing is left of it. -/
theorem failed_listing_unrecorded :
    let listing : Call := .list ⟨"admins", false⟩ (some ⟨"ann", {"dev"}, ∅⟩)
    let made := Call.makeAll bindingsDown [listing] ()
    sink made = [] ∧ ¬ ∀ m ∈ made, m.isCheck = false → ∃ e, m.events = [.listing e] := by
  intro listing made
  have hevents : (listing.make bindingsDown ()).events = [] := by decide +kernel
  refine ⟨by decide +kernel, fun h => ?_⟩
  obtain ⟨e, he⟩ := h _ (List.mem_singleton_self _) rfl
  rw [hevents] at he
  contradiction

end sample

end NamespaceAccess
