import NamespaceAccess.Proofs.CatalogNames
import NamespaceAccess.Proofs.Directory
import NamespaceAccess.Proofs.Tokens

/-!
What callers outside the admin group can be let in to at all: kinds of the catalog that live in
namespaces, in namespaces that exist.
-/
namespace NamespaceAccess

/-- A path of the catalog is no other entry's path, alias or kind. -/
theorem Catalog.path_eq_of_answersTo {entry other : ResourceDefinition} (hentry : entry ∈ all)
    (hother : other ∈ all) (h : other.answersTo entry.path) : other.path = entry.path := by
  rw [eq_of_hasName hother hentry (ResourceDefinition.answersTo_iff.mp h) .ofPath]

namespace Directory

variable {d : Directory} {config : EngineConfig} {request : AccessRequest} {p : Principal}
  {r : ResourceRequest}

/-- A caller outside the admin group is let in by a binding, whose tokens were checked when it was
stored. -/
theorem Reachable.grantToken_valid (hd : d.Reachable)
    (hr : RequestPath.classify request.path = some r) (ha : config.adminGroup ∉ p.groups)
    (hallowed : config.answer collaborators d request (some p) = .ok .allowed) :
    ResourceToken.error? r.grantToken = none := by
  obtain ⟨-, b, ⟨key, hb⟩, hgrants⟩ :=
    (EngineConfig.answer_collaborators_eq_allowed_iff hr ha).mp hallowed
  have hvalid := (RoleBinding.error?_eq_none_iff.mp (hd.stored hb).1).2.2.2
  exact hvalid _ hgrants.2.1

theorem exists_classified_of_allowed {principal : Option Principal}
    (hallowed : config.answer collaborators d request principal = .ok .allowed) :
    ∃ p r, principal = some p ∧ RequestPath.classify request.path = some r := by
  cases principal with
  | none =>
    simp [EngineConfig.answer_of_unauthenticated] at hallowed
  | some p =>
    cases hr : RequestPath.classify request.path with
    | none =>
      simp [EngineConfig.answer_of_unclassified hr] at hallowed
    | some r => exact ⟨p, r, rfl, rfl⟩

/-- Nobody but admins is ever let in to a kind that the catalog does not list under that very path,
to a kind outside namespaces, or to a sub-action that no binding could name. -/
theorem closed_world (hd : d.Reachable) {principal : Option Principal}
    (hallowed : config.answer collaborators d request principal = .ok .allowed)
    (ha : ∀ p ∈ principal, config.adminGroup ∉ p.groups) :
    ∃ r, RequestPath.classify request.path = some r ∧
      (∃ n, d.findNamespace r.namespaceName = some n) ∧
      (∃ entry ∈ Catalog.all, entry.path = r.resourceType ∧ entry.namespaced) ∧
      r.resourceType ≠ "namespaces" ∧
      (∀ entry ∈ Catalog.all, entry.answersTo r.resourceType → entry.path = r.resourceType) ∧
      ∀ action ∈ r.subAction, action ≠ "" ∧
        ∀ c ∈ action.toList, ('a' ≤ c ∧ c ≤ 'z') ∨ ('0' ≤ c ∧ c ≤ '9') ∨ c = '-' := by
  obtain ⟨p, r, rfl, hr⟩ := exists_classified_of_allowed hallowed
  have hp := ha p rfl
  obtain ⟨hnamespace, -⟩ := (EngineConfig.answer_collaborators_eq_allowed_iff hr hp).mp hallowed
  have htoken := hd.grantToken_valid hr hp hallowed
  obtain ⟨_, _, -, -, hwf, -⟩ := RequestPath.classify_sound hr
  rw [ResourceToken.error?_eq_none_iff, ResourceRequest.split_grantToken hwf] at htoken
  obtain ⟨entry, hfind, hscope, haction⟩ := htoken
  obtain ⟨hentry, hpath⟩ : entry ∈ Catalog.all ∧ entry.path = r.resourceType :=
    Catalog.find?_eq_some_iff.mp hfind
  refine ⟨r, hr, hnamespace, ⟨entry, hentry, hpath, hscope⟩, ?_, ?_, ?_⟩
  · rw [← hpath]
    exact Catalog.path_ne_anchor hentry hscope
  · intro other hother h
    rw [← hpath] at h ⊢
    exact Catalog.path_eq_of_answersTo hentry hother h
  · exact fun action h => ResourceToken.isSubAction_iff.mp (haction action h)

section sample

def restartDirectory : Directory :=
  (empty.apply (.insertNamespace ⟨"team", "c"⟩)).apply
    (.insertBinding (sampleBinding "team" "connectors/restart" {.put}))

theorem closed_world_restart :
    let request : AccessRequest := ⟨"/api/namespaces/team/connectors/c1/restart", some .put⟩
    restartDirectory.Reachable ∧
    sampleConfig.answer collaborators restartDirectory request (some sampleCaller) =
      .ok .allowed ∧
    sampleConfig.adminGroup ∉ sampleCaller.groups ∧
    RequestPath.classify request.path = some ⟨"team", "connectors", some "c1", some "restart"⟩ ∧
    (∃ n, restartDirectory.findNamespace "team" = some n) ∧
    (∃ entry ∈ Catalog.all, entry.path = "connectors" ∧ entry.namespaced) ∧
    ∀ c ∈ "restart".toList, ('a' ≤ c ∧ c ≤ 'z') ∨ ('0' ≤ c ∧ c ≤ '9') ∨ c = '-' := by
  intro request
  have hd : restartDirectory.Reachable := .apply _ (.apply _ .empty)
  have ha : sampleConfig.adminGroup ∉ sampleCaller.groups := by decide +kernel
  have hr : RequestPath.classify request.path =
      some ⟨"team", "connectors", some "c1", some "restart"⟩ := by decide +kernel
  have hallowed : sampleConfig.answer collaborators restartDirectory request (some sampleCaller) =
      .ok .allowed :=
    (EngineConfig.answer_collaborators_eq_allowed_iff hr ha).mpr ⟨⟨⟨"team", "c"⟩, by decide +kernel⟩,
      sampleBinding "team" "connectors/restart" {.put}, ⟨⟨"team", "devs"⟩, by decide +kernel⟩,
      by decide +kernel⟩
  obtain ⟨r, hr', hnamespace, hentry, -, -, haction⟩ :=
    closed_world hd hallowed (fun p hp => Option.some.inj hp ▸ ha)
  obtain rfl := Option.some.inj (hr.symm.trans hr')
  exact ⟨hd, hallowed, ha, hr, hnamespace, hentry, (haction "restart" rfl).2⟩

end sample

end Directory

end NamespaceAccess
