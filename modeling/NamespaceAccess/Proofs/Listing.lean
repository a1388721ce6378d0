import NamespaceAccess.Proofs.Directory
import NamespaceAccess.Proofs.Rendering
import NamespaceAccess.Proofs.Tokens

/-!
Which part of the catalog a caller sees, compared with the requests that the caller would be allowed
to make.
-/
namespace NamespaceAccess

theorem GrantSet.mem_unscopedTokens {groups : GroupSet} {bindings : List RoleBinding} {t : String} :
    t ∈ unscopedTokens groups bindings ↔
      ∃ b ∈ bindings, (b.subject.kind = .group ∧ b.subject.name ∈ groups) ∧
        t ∈ b.role.resourceTypes := by
  simp [unscopedTokens, List.mem_filter, Subject.matchesAnyGroup_iff, and_assoc]

theorem Catalog.mem_withPaths {paths : Std.ExtTreeSet String} {entry : ResourceDefinition} :
    entry ∈ withPaths paths ↔ entry ∈ all ∧ entry.path ∈ paths := by
  simp [withPaths]

/-- A token without a sub-action that is granted at all belongs to a kind inside namespaces. -/
theorem Catalog.namespaced_of_error?_eq_none {entry : ResourceDefinition} (h : entry ∈ all)
    (hvalid : ResourceToken.error? entry.path = none) : entry.namespaced := by
  have hslash := (nameText_path h).slash_not_mem
  obtain ⟨found, hfound, hscope, -⟩ := ResourceToken.error?_eq_none_iff.mp hvalid
  rw [ResourceToken.split_of_not_mem hslash, find?_path h] at hfound
  obtain rfl := Option.some.inj hfound
  exact hscope

namespace EngineConfig

variable {config : EngineConfig} {p : Principal}

theorem requiredVerb_none : config.requiredVerb none = none := by
  simp [requiredVerb]

theorem result_listCatalog {σ : Type} {c : Collaborators σ} {state : σ}
    {bindings : List RoleBinding} (ha : config.adminGroup ∉ p.groups)
    (hb : (c.findBindings p.groups state).1 = .ok bindings) :
    ((config.listCatalog (some p)).run c state).result =
      .ok (Catalog.withPaths (GrantSet.unscopedTokens p.groups bindings)) := by
  simp only [listCatalog, isAdmin_iff, ha, if_false, Dialogue.run, hb]
  rfl

theorem result_listCatalog_of_admin {σ : Type} {c : Collaborators σ} {state : σ}
    (ha : config.adminGroup ∈ p.groups) :
    ((config.listCatalog (some p)).run c state).result = .ok Catalog.all := by
  simp only [listCatalog, isAdmin_iff, ha, if_true]
  rfl

end EngineConfig

namespace Directory

variable {d : Directory} {config : EngineConfig} {p : Principal} {entry : ResourceDefinition}

def visible (d : Directory) (groups : GroupSet) : List ResourceDefinition :=
  Catalog.withPaths (GrantSet.unscopedTokens groups (d.findBindings groups))

theorem mem_visible_iff {groups : GroupSet} :
    entry ∈ d.visible groups ↔ entry ∈ Catalog.all ∧
      ∃ b, d.Stores b ∧ (b.subject.kind = .group ∧ b.subject.name ∈ groups) ∧
        entry.path ∈ b.role.resourceTypes := by
  rw [visible, Catalog.mem_withPaths, GrantSet.mem_unscopedTokens]
  refine and_congr_right fun _ => exists_congr fun b => ?_
  rw [mem_findBindings_iff, and_assoc]
  refine and_congr_right fun _ => ⟨fun h => h.2, fun h => ⟨h.1, h⟩⟩

/-- In a namespace that exists it is the stored bindings alone that let a caller in. -/
theorem answer_insertNamespace_eq_allowed_iff {request : AccessRequest} {r : ResourceRequest}
    {n : Namespace} (hr : RequestPath.classify request.path = some r)
    (ha : config.adminGroup ∉ p.groups) (hn : r.namespaceName = n.name) :
    config.answer collaborators (d.insertNamespace n) request (some p) = .ok .allowed ↔
      ∃ b, d.Stores b ∧
        b.Grants n.name p.groups r.grantToken (config.requiredVerb request.verb) := by
  rw [EngineConfig.answer_collaborators_eq_allowed_iff hr ha, hn]
  refine and_iff_right ⟨n, ?_⟩
  simp [insertNamespace]

def kindRequest (name : String) (entry : ResourceDefinition) : ResourceRequest :=
  ⟨name, entry.path, none, none⟩

theorem classify_kindPath {name : String} (hname : NameText name) (hentry : entry ∈ Catalog.all) :
    RequestPath.classify ("/namespaces/" ++ name ++ "/" ++ entry.path) =
      some (kindRequest name entry) := by
  have hrender : "/namespaces/" ++ name ++ "/" ++ entry.path =
      RequestPath.render [] (kindRequest name entry) false := by
    simp [RequestPath.render, RequestPath.join, kindRequest, ResourceRequest.segments,
      RequestPath.anchor, ← String.toList_inj]
  have hwf : (kindRequest name entry).WellFormed :=
    ⟨by simpa [kindRequest, ResourceRequest.segments] using ⟨hname, Catalog.nameText_path hentry⟩,
      by simp [kindRequest]⟩
  rw [hrender, RequestPath.classify_render_eq_some_self_iff (by simp) hwf]
  simp [kindRequest]

theorem checkSecurity_kindPath_eq_allowed_iff {name : String} (cluster : String)
    (ha : config.adminGroup ∉ p.groups) (hname : NameText name) (hentry : entry ∈ Catalog.all) :
    ((config.checkSecurity ("/namespaces/" ++ name ++ "/" ++ entry.path) (some p)).run
        collaborators (d.insertNamespace ⟨name, cluster⟩)).result = .ok .allowed ↔
      ∃ b, d.Stores b ∧ b.Applies name p.groups ∧ entry.path ∈ b.role.resourceTypes := by
  have hanswer : config.answer collaborators (d.insertNamespace ⟨name, cluster⟩)
      ⟨"/namespaces/" ++ name ++ "/" ++ entry.path, none⟩ (some p) = .ok .allowed ↔
        ∃ b, d.Stores b ∧ b.Grants name p.groups (kindRequest name entry).grantToken
          (config.requiredVerb none) :=
    answer_insertNamespace_eq_allowed_iff (classify_kindPath hname hentry) ha rfl
  refine hanswer.trans (exists_congr fun b => and_congr_right fun _ => ?_)
  simp [RoleBinding.Grants, EngineConfig.requiredVerb_none, kindRequest, ResourceRequest.grantToken]

/-- A binding that makes a kind visible was valid, so it has a namespace in which the kind may be
used. -/
theorem Reachable.mem_visible_iff_exists_allowed (hd : d.Reachable) (cluster : String)
    (ha : config.adminGroup ∉ p.groups) (hentry : entry ∈ Catalog.all) :
    entry ∈ d.visible p.groups ↔ ∃ name, NameText name ∧
      ((config.checkSecurity ("/namespaces/" ++ name ++ "/" ++ entry.path) (some p)).run
        collaborators (d.insertNamespace ⟨name, cluster⟩)).result = .ok .allowed := by
  rw [mem_visible_iff]
  constructor
  · rintro ⟨-, b, ⟨key, hb⟩, hgroup, htoken⟩
    have hname := nameText_iff.mpr (RoleBinding.error?_eq_none_iff.mp (hd.stored hb).1).1
    exact ⟨b.namespaceName, hname, (checkSecurity_kindPath_eq_allowed_iff cluster ha hname hentry).mpr
      ⟨b, ⟨key, hb⟩, ⟨rfl, hgroup⟩, htoken⟩⟩
  · rintro ⟨name, hname, hallowed⟩
    obtain ⟨b, hstored, happlies, htoken⟩ :=
      (checkSecurity_kindPath_eq_allowed_iff cluster ha hname hentry).mp hallowed
    exact ⟨hentry, b, hstored, happlies.2, htoken⟩

theorem Reachable.namespaced_of_mem_visible (hd : d.Reachable) {groups : GroupSet}
    (h : entry ∈ d.visible groups) : entry.namespaced := by
  obtain ⟨hall, b, ⟨key, hb⟩, -, htoken⟩ := mem_visible_iff.mp h
  have hvalid := (RoleBinding.error?_eq_none_iff.mp (hd.stored hb).1).2.2.2
  exact Catalog.namespaced_of_error?_eq_none hall (hvalid _ htoken)

/-- A sub-action is granted without the kind it belongs to. -/
theorem visible_eq_nil {groups : GroupSet}
    (h : ∀ b, d.Stores b → b.subject.kind = .group → b.subject.name ∈ groups →
      ∀ token ∈ b.role.resourceTypes, '/' ∈ token.toList) : d.visible groups = [] := by
  rw [List.eq_nil_iff_forall_not_mem]
  intro entry hentry
  obtain ⟨hall, b, hstored, ⟨hkind, hgroup⟩, htoken⟩ := mem_visible_iff.mp hentry
  exact (Catalog.nameText_path hall).slash_not_mem (h b hstored hkind hgroup _ htoken)

/-- A caller outside the admin group sees a kind exactly if there is a namespace in which the caller
may use it, supposing the namespace exists. -/
theorem listCatalog_agrees (hd : d.Reachable) (ha : config.adminGroup ∉ p.groups) :
    ∃ visible, ((config.listCatalog (some p)).run collaborators d).result = .ok visible ∧
      visible.Sublist Catalog.all ∧ visible.Nodup ∧
      (∀ entry ∈ Catalog.all, ∀ cluster, entry ∈ visible ↔ ∃ name, NameText name ∧
        ((config.checkSecurity ("/namespaces/" ++ name ++ "/" ++ entry.path) (some p)).run
          collaborators (d.insertNamespace ⟨name, cluster⟩)).result = .ok .allowed) ∧
      (∀ entry ∈ visible, entry.namespaced) ∧
      ((∀ b, d.Stores b → b.subject.kind = .group → b.subject.name ∈ p.groups →
        ∀ token ∈ b.role.resourceTypes, '/' ∈ token.toList) → visible = []) := by
  have hsublist : (d.visible p.groups).Sublist Catalog.all := List.filter_sublist
  exact ⟨d.visible p.groups, EngineConfig.result_listCatalog ha rfl, hsublist,
    Catalog.nodup_all.sublist hsublist,
    fun entry hentry cluster => hd.mem_visible_iff_exists_allowed cluster ha hentry,
    fun entry => hd.namespaced_of_mem_visible, visible_eq_nil⟩

section sample

def grantedDirectory : Directory :=
  (empty.apply (.insertBinding (sampleBinding "team" "topics" {.get}))).apply
    (.insertBinding ⟨"team", "restarters", ⟨"dev", .group⟩, ⟨["connectors/restart"], {.put}⟩⟩)

theorem listCatalog_agrees_granted :
    grantedDirectory.Reachable ∧ sampleConfig.adminGroup ∉ sampleCaller.groups ∧
    ((sampleConfig.listCatalog (some sampleCaller)).run collaborators grantedDirectory).result =
      .ok [Catalog.topic] ∧
    (∃ name, NameText name ∧
      ((sampleConfig.checkSecurity ("/namespaces/" ++ name ++ "/" ++ "topics")
        (some sampleCaller)).run collaborators
          (grantedDirectory.insertNamespace ⟨name, "c"⟩)).result = .ok .allowed) ∧
    ¬ ∃ name, NameText name ∧
      ((sampleConfig.checkSecurity ("/namespaces/" ++ name ++ "/" ++ "connectors")
        (some sampleCaller)).run collaborators
          (grantedDirectory.insertNamespace ⟨name, "c"⟩)).result = .ok .allowed := by
  have hd : grantedDirectory.Reachable := .apply _ (.apply _ .empty)
  have ha : sampleConfig.adminGroup ∉ sampleCaller.groups := by decide +kernel
  have hlisted : ((sampleConfig.listCatalog (some sampleCaller)).run collaborators
      grantedDirectory).result = .ok [Catalog.topic] :=
    (EngineConfig.result_listCatalog ha rfl).trans (congrArg Except.ok (by decide +kernel))
  obtain ⟨visible, hvisible, -, -, hagrees, -, -⟩ := listCatalog_agrees hd ha
  obtain rfl : visible = [Catalog.topic] := Except.ok.inj (hvisible.symm.trans hlisted)
  refine ⟨hd, ha, hlisted, (hagrees Catalog.topic (by decide) "c").mp (by simp), ?_⟩
  intro hallowed
  exact absurd ((hagrees Catalog.connector (by decide) "c").mpr hallowed) (by decide)

end sample

end Directory

end NamespaceAccess
