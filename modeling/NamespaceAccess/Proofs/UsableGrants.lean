import NamespaceAccess.Proofs.Rendering
import NamespaceAccess.Proofs.Tokens

/-!
Which of the grants that bindings may hold can be used by some request. A sub-action is only ever
asked of a named resource, and in a namespace that is named like the anchor no resource has a name.
-/
namespace NamespaceAccess

namespace ResourceToken

variable {token namespaceName : String}

/-- What the token grants, asked for. Where a resource has to be named, any name will do. -/
def request (token namespaceName : String) : ResourceRequest where
  namespaceName := namespaceName
  resourceType := (split token).1
  resourceName := (split token).2.map fun _ => "any"
  subAction := (split token).2

theorem grantToken_request : (request token namespaceName).grantToken = token :=
  ResourceRequest.grantToken_of_split rfl

section granted

variable (htoken : error? token = none)
include htoken

theorem nameText_split_fst : NameText (split token).1 := by
  obtain ⟨entry, hfind, -, -⟩ := error?_eq_none_iff.mp htoken
  obtain ⟨hentry, hpath⟩ := Catalog.find?_some hfind
  exact hpath ▸ Catalog.nameText_path hentry

theorem split_fst_ne_anchor : (split token).1 ≠ RequestPath.anchor := by
  obtain ⟨entry, hfind, hscope, -⟩ := error?_eq_none_iff.mp htoken
  obtain ⟨hentry, hpath⟩ := Catalog.find?_some hfind
  exact hpath ▸ Catalog.path_ne_anchor hentry hscope

theorem wellFormed_request (hname : NameText namespaceName) :
    (request token namespaceName).WellFormed where
  names := by
    obtain ⟨-, -, -, haction⟩ := error?_eq_none_iff.mp htoken
    have hany : NameText "any" := by decide
    have hbase := nameText_split_fst htoken
    cases hsplit : (split token).2 with
    | none => simp [ResourceRequest.segments, request, hsplit, hname, hbase]
    | some action =>
      have haction := nameText_of_isSubAction (haction action hsplit)
      simp [ResourceRequest.segments, request, hsplit, hname, hbase, hany, haction]
  resourceNamed := by simp [request]

/-- The kinds that can be granted are not named like the anchor, so it is for the namespace alone to
be taken for one. -/
theorem classify_render_request (hname : NameText namespaceName)
    (h : ¬ (namespaceName = RequestPath.anchor ∧ '/' ∈ token.toList)) :
    RequestPath.classify (RequestPath.render [] (request token namespaceName) false) =
      some (request token namespaceName) := by
  rw [RequestPath.classify_render_eq_some_self_iff (by simp) (wellFormed_request htoken hname)]
  rw [slash_mem_iff] at h
  exact ⟨by simpa [request] using h, fun htype => split_fst_ne_anchor htoken htype.1⟩

end granted

end ResourceToken

/-- A request for a sub-action names a resource, and so does not lie in a namespace named like the
anchor. -/
theorem RequestPath.namespaceName_ne_anchor_of_classify {path : String} {r : ResourceRequest}
    (h : classify path = some r) (hslash : '/' ∈ r.grantToken.toList) :
    r.namespaceName ≠ anchor := by
  obtain ⟨-, -, -, -, hwf, hlater⟩ := classify_sound h
  rw [ResourceToken.slash_mem_iff, ResourceRequest.split_grantToken hwf] at hslash
  rw [hasLaterAnchor_segments_iff hwf.resourceNamed, not_or] at hlater
  exact fun hanchor => hlater.1 ⟨hanchor, hwf.resourceNamed hslash⟩

/-- Every token that a valid binding lists is asked for by some path in the namespace of the
binding, except that nothing ever asks for a sub-action in the namespace that is named like the
anchor. -/
theorem RoleBinding.exists_classify_iff {b : RoleBinding} (hvalid : b.error? = none)
    {token : String} (htoken : token ∈ b.role.resourceTypes) :
    (∃ path r, RequestPath.classify path = some r ∧ r.namespaceName = b.namespaceName ∧
        r.grantToken = token) ↔
      ¬ (b.namespaceName = "namespaces" ∧ '/' ∈ token.toList) := by
  obtain ⟨hname, -, -, htokens⟩ := RoleBinding.error?_eq_none_iff.mp hvalid
  constructor
  · rintro ⟨path, r, hpath, hnamespace, rfl⟩ ⟨hanchor, hslash⟩
    exact RequestPath.namespaceName_ne_anchor_of_classify hpath hslash (hnamespace.trans hanchor)
  · intro h
    exact ⟨_, _, ResourceToken.classify_render_request (htokens token htoken)
      (nameText_iff.mpr hname) h, rfl, ResourceToken.grantToken_request⟩

section sample

def restarters (namespaceName : String) : RoleBinding :=
  ⟨namespaceName, "restart", ⟨"ops", .group⟩, ⟨["connectors/restart", "connectors"], {.put}⟩⟩

/-- In one namespace the grant can be used, in the other it is accepted all the same and is dead. -/
theorem RoleBinding.exists_classify_iff_restarters :
    let requested (namespaceName token : String) := ∃ path r,
      RequestPath.classify path = some r ∧ r.namespaceName = namespaceName ∧ r.grantToken = token
    ((restarters "team").error? = none ∧ requested "team" "connectors/restart") ∧
    (restarters "namespaces").error? = none ∧ ¬ requested "namespaces" "connectors/restart" ∧
      requested "namespaces" "connectors" := by
  intro requested
  have hteam : (restarters "team").error? = none := by decide +kernel
  have hanchor : (restarters "namespaces").error? = none := by decide +kernel
  refine ⟨⟨hteam, ?_⟩, hanchor, ?_, ?_⟩
  · exact (RoleBinding.exists_classify_iff hteam (by simp [restarters])).mpr (by decide +kernel)
  · exact fun h =>
      (RoleBinding.exists_classify_iff hanchor (by simp [restarters])).mp h (by decide +kernel)
  · exact (RoleBinding.exists_classify_iff hanchor (by simp [restarters])).mpr (by decide +kernel)

end sample

end NamespaceAccess
