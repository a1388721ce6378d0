import NamespaceAccess.Proofs.Grants
import NamespaceAccess.Proofs.Tokens

/-!
A grant of a kind is no grant of its sub-actions, and a grant of one sub-action is no grant of
another. Requests meet grants as flat texts only, and it is the grammar of paths that keeps the
texts of different requests apart.
-/
namespace NamespaceAccess

def RoleBinding.only (token : String) (b : RoleBinding) : RoleBinding :=
  { b with role.resourceTypes := b.role.resourceTypes.filter (· == token) }

theorem RoleBinding.grants_only_iff {b : RoleBinding} {token t namespaceName : String}
    {groups : GroupSet} {verb : Option Verb} :
    (b.only token).Grants namespaceName groups t verb ↔
      t = token ∧ b.Grants namespaceName groups t verb := by
  have hmem : t ∈ b.role.resourceTypes.filter (· == token) ↔
      t = token ∧ t ∈ b.role.resourceTypes := by
    rw [List.mem_filter, beq_iff_eq, and_comm]
  calc (b.only token).Grants namespaceName groups t verb
    _ ↔ b.Applies namespaceName groups ∧ (t = token ∧ t ∈ b.role.resourceTypes) ∧
          ∀ v ∈ verb, v ∈ b.role.verbs := by rw [← hmem]; rfl
    _ ↔ t = token ∧ b.Grants namespaceName groups t verb := by
      rw [Grants, and_assoc, and_left_comm]

namespace ResourceToken

/-- What the token permits by itself, wherever these bindings list it. -/
def Permits (token namespaceName : String) (groups : GroupSet) (bindings : List RoleBinding)
    (r : ResourceRequest) (verb : Option Verb) : Prop :=
  (GrantSet.build namespaceName groups (bindings.map (·.only token))).permits r verb

/-- Texts that no validation lets pass, though bindings may hold them. -/
inductive Malformed (token : String) : Prop where
  | empty (h : token = "")
  | leadingSlash {rest : String} (h : token = "/" ++ rest)
  | trailingSlash {front : String} (h : token = front ++ "/")
  | secondSlash (h : 2 ≤ token.toList.count '/')
  | strangeChar {c : Char} (hmem : c ∈ token.toList) (hslash : c ≠ '/')
    (h : ¬ (('A' ≤ c ∧ c ≤ 'Z') ∨ ('a' ≤ c ∧ c ≤ 'z') ∨ ('0' ≤ c ∧ c ≤ '9') ∨
      c = '_' ∨ c = '.' ∨ c = '-'))

variable {token namespaceName : String} {groups : GroupSet} {bindings : List RoleBinding}
  {r : ResourceRequest} {verb : Option Verb}

theorem permits_iff : Permits token namespaceName groups bindings r verb ↔
    r.grantToken = token ∧ (GrantSet.build namespaceName groups bindings).permits r verb := by
  unfold Permits
  rw [GrantSet.permits_build_iff, GrantSet.permits_build_iff]
  constructor
  · rintro ⟨_, hmem, hgrants⟩
    obtain ⟨b, hb, rfl⟩ := List.mem_map.mp hmem
    rw [RoleBinding.grants_only_iff] at hgrants
    exact ⟨hgrants.1, b, hb, hgrants.2⟩
  · rintro ⟨htoken, b, hb, hgrants⟩
    exact ⟨b.only token, List.mem_map_of_mem hb, RoleBinding.grants_only_iff.mpr ⟨htoken, hgrants⟩⟩

/-- Each request has one token, so what is permitted is permitted by a token. -/
theorem permits_build_iff_exists :
    (GrantSet.build namespaceName groups bindings).permits r verb ↔
      ∃ token, Permits token namespaceName groups bindings r verb := by
  simp [permits_iff]

end ResourceToken

namespace ResourceRequest

variable {r r' : ResourceRequest}

/-- The token of a request whose segments are names is one of them, or two around a slash. -/
theorem WellFormed.grantToken_cases (h : r.WellFormed) :
    (NameText r.resourceType ∧ r.grantToken.toList = r.resourceType.toList) ∨
      ∃ action, NameText r.resourceType ∧ NameText action ∧
        r.grantToken.toList = r.resourceType.toList ++ '/' :: action.toList := by
  have htype : NameText r.resourceType := h.names _ (by simp [segments])
  unfold grantToken
  cases haction : r.subAction with
  | none => exact .inl ⟨htype, rfl⟩
  | some action =>
    have haction : NameText action := h.names _ (by simp [segments, haction])
    exact .inr ⟨action, htype, haction, by simp⟩

/-- No classified request asks for such a token: names hold no slash, nor anything strange. -/
theorem WellFormed.not_malformed (h : r.WellFormed) : ¬ ResourceToken.Malformed r.grantToken := by
  have hname {s : String} (hs : NameText s) : s.toList ≠ [] ∧ '/' ∉ s.toList :=
    ⟨by simpa using hs.nonempty, hs.slash_not_mem⟩
  intro hmalformed
  rcases h.grantToken_cases with ⟨htype, htoken⟩ | ⟨action, htype, haction, htoken⟩
  · obtain ⟨hne, hslash⟩ := hname htype
    rw [← htoken] at hne hslash
    cases hmalformed with
    | empty h => simp [h] at hne
    | leadingSlash h | trailingSlash h => simp [h] at hslash
    | secondSlash h => simp [List.count_eq_zero_of_not_mem hslash] at h
    | strangeChar hmem _ h => exact h (htype.chars _ (htoken ▸ hmem))
  · obtain ⟨hne, hslash⟩ := hname htype
    obtain ⟨hne', hslash'⟩ := hname haction
    cases hmalformed with
    | empty h => simp [h] at htoken
    | leadingSlash h =>
      obtain ⟨c, cs, hcons⟩ := List.exists_cons_of_ne_nil hne
      obtain rfl : '/' = c := by simpa [h, hcons] using congrArg List.head? htoken
      simp [hcons] at hslash
    | trailingSlash h =>
      obtain ⟨cs, c, hconcat⟩ := (List.eq_nil_or_concat _).resolve_left hne'
      obtain rfl : '/' = c := by
        simpa [h, hconcat, List.getLast?_cons] using congrArg List.getLast? htoken
      simp [hconcat] at hslash'
    | secondSlash h =>
      simp [htoken, List.count_eq_zero_of_not_mem hslash, List.count_eq_zero_of_not_mem hslash']
        at h
    | strangeChar hmem hne h =>
      rw [htoken, List.mem_append, List.mem_cons] at hmem
      rcases hmem with hmem | rfl | hmem
      · exact h (htype.chars _ hmem)
      · exact hne rfl
      · exact h (haction.chars _ hmem)

theorem grantToken_eq_iff_parts (h : r.WellFormed) {token : String} :
    r.grantToken = token ↔ ResourceToken.Parts token r.resourceType r.subAction := by
  rw [ResourceToken.parts_iff]
  constructor
  · rintro rfl
    exact split_grantToken h
  · exact grantToken_of_split

end ResourceRequest

/-- A classified request asks for the one token that splits into its resource type and its
sub-action, whatever its namespace and its resource are named. So a token without a slash permits
requests for the very resource type only, a token with one those for the very sub-action only, and
a token that is malformed permits none at all, whatever bindings list it. -/
theorem sub_actions_separate {path : String} {r : ResourceRequest}
    (hr : RequestPath.classify path = some r) :
    (∀ token, r.grantToken = token ↔ ResourceToken.Parts token r.resourceType r.subAction) ∧
    (∀ token, r.grantToken = token ↔
      ResourceToken.split token = (r.resourceType, r.subAction)) ∧
    (∀ path' r', RequestPath.classify path' = some r' →
      (r.grantToken = r'.grantToken ↔
        r.resourceType = r'.resourceType ∧ r.subAction = r'.subAction)) ∧
    ∀ namespaceName groups bindings verb,
      ((GrantSet.build namespaceName groups bindings).permits r verb ↔
        ∃ token, ResourceToken.Permits token namespaceName groups bindings r verb) ∧
      ∀ token, ResourceToken.Permits token namespaceName groups bindings r verb →
        ('/' ∉ token.toList → r.resourceType = token ∧ r.subAction = none) ∧
        (∀ base action, '/' ∉ base.toList → token = base ++ "/" ++ action →
          r.resourceType = base ∧ r.subAction = some action) ∧
        ¬ ResourceToken.Malformed token := by
  obtain ⟨_, _, -, -, hwf, -⟩ := RequestPath.classify_sound hr
  have hparts {token : String} : r.grantToken = token ↔
      ResourceToken.split token = (r.resourceType, r.subAction) := by
    rw [ResourceRequest.grantToken_eq_iff_parts hwf, ResourceToken.parts_iff]
  refine ⟨fun token => ResourceRequest.grantToken_eq_iff_parts hwf, fun token => hparts, ?_, ?_⟩
  · intro path' r' hr'
    obtain ⟨_, _, -, -, hwf', -⟩ := RequestPath.classify_sound hr'
    rw [hparts, ResourceRequest.split_grantToken hwf', Prod.mk.injEq, eq_comm,
      eq_comm (a := r'.subAction)]
  · intro namespaceName groups bindings verb
    refine ⟨ResourceToken.permits_build_iff_exists, fun token hpermits => ?_⟩
    obtain ⟨htoken, -⟩ := ResourceToken.permits_iff.mp hpermits
    refine ⟨fun hslash => ?_, fun base action hslash hjoined => ?_, ?_⟩
    · simpa [ResourceToken.split_of_not_mem hslash, eq_comm] using hparts.mp htoken
    · subst hjoined
      simpa [ResourceToken.split_append_slash hslash, eq_comm] using hparts.mp htoken
    · exact htoken ▸ hwf.not_malformed

section sample

def seeConnectors : RoleBinding :=
  ⟨"team", "see", ⟨"dev", .group⟩, ⟨["connectors", "/connectors/restart"], {.get, .put}⟩⟩

def restartConnectors : RoleBinding :=
  ⟨"team", "restart", ⟨"dev", .group⟩, ⟨["connectors/restart"], {.put}⟩⟩

theorem sub_actions_separate_restart :
    let r : ResourceRequest := ⟨"team", "connectors", some "c1", some "restart"⟩
    let r' : ResourceRequest := ⟨"other", "connectors", some "c2", some "restart"⟩
    let permits token := ResourceToken.Permits token "team" {"dev"}
      [seeConnectors, restartConnectors] r (some .put)
    RequestPath.classify "/api/namespaces/team/connectors/c1/restart" = some r ∧
    RequestPath.classify "/namespaces/other/connectors/c2/restart/" = some r' ∧
    r.grantToken = r'.grantToken ∧
    permits "connectors/restart" ∧ ¬ ResourceToken.Malformed "connectors/restart" ∧
    ¬ permits "connectors" ∧ ¬ permits "/connectors/restart" := by
  intro r r' permits
  have hr : RequestPath.classify "/api/namespaces/team/connectors/c1/restart" = some r := by
    decide +kernel
  have hr' : RequestPath.classify "/namespaces/other/connectors/c2/restart/" = some r' := by
    decide +kernel
  have hpermits : permits "connectors/restart" :=
    ResourceToken.permits_iff.mpr ⟨by decide +kernel,
      GrantSet.permits_build_iff.mpr ⟨restartConnectors, by simp, by decide +kernel⟩⟩
  obtain ⟨-, -, hsame, hgrants⟩ := sub_actions_separate hr
  obtain ⟨-, honly⟩ := hgrants "team" {"dev"} [seeConnectors, restartConnectors] (some .put)
  refine ⟨hr, hr', (hsame _ _ hr').mpr ⟨rfl, rfl⟩, hpermits, (honly _ hpermits).2.2, ?_, ?_⟩
  · intro h
    obtain ⟨-, haction⟩ := (honly _ h).1 (by decide +kernel)
    cases haction
  · intro h
    have hslash : "/connectors/restart" = "/" ++ "connectors/restart" := by decide +kernel
    exact (honly _ h).2.2 (.leadingSlash hslash)

end sample

/-- Requests that were not read from a path can meet in one token. -/
example : (⟨"team", "a/b", none, none⟩ : ResourceRequest).grantToken =
    (⟨"team", "a", some "x", some "b"⟩ : ResourceRequest).grantToken := by decide +kernel

end NamespaceAccess
