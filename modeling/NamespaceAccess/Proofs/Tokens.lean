import NamespaceAccess.Proofs.Classification
import NamespaceAccess.RoleBinding.Validation

/-!
Which resource tokens can be granted, and what the token of a classified request says about it.
-/
namespace NamespaceAccess

theorem Catalog.nameText_path {entry : ResourceDefinition} (h : entry ∈ all) :
    NameText entry.path := by
  revert entry
  decide

theorem Catalog.path_ne_anchor {entry : ResourceDefinition} (hentry : entry ∈ all)
    (h : entry.namespaced) : entry.path ≠ RequestPath.anchor := by
  revert entry
  decide

namespace ResourceToken

variable {token : String}

theorem isSubActionChar_iff {c : Char} :
    isSubActionChar c ↔ ('a' ≤ c ∧ c ≤ 'z') ∨ ('0' ≤ c ∧ c ≤ '9') ∨ c = '-' := by
  have hlower : c.isLower = (decide ('a' ≤ c) && decide (c ≤ 'z')) := rfl
  have hdigit : c.isDigit = (decide ('0' ≤ c) && decide (c ≤ '9')) := rfl
  simp [isSubActionChar, hlower, hdigit, or_assoc]

theorem isSubAction_iff {s : String} :
    isSubAction s ↔ s ≠ "" ∧
      ∀ c ∈ s.toList, ('a' ≤ c ∧ c ≤ 'z') ∨ ('0' ≤ c ∧ c ≤ '9') ∨ c = '-' := by
  simp [isSubAction, isSubActionChar_iff]

/-- What can be granted is a kind that lives in namespaces, alone or with one of its sub-actions. -/
theorem error?_eq_none_iff :
    error? token = none ↔ ∃ entry, Catalog.find? (split token).1 = some entry ∧ entry.namespaced ∧
      ∀ action ∈ (split token).2, isSubAction action := by
  unfold error?
  obtain ⟨base, action⟩ := split token
  cases hfind : Catalog.find? base with
  | none => simp [hfind]
  | some entry =>
    cases hscope : entry.namespaced with
    | false => simp [hfind, hscope]
    | true => cases action <;> simp [hfind, hscope]

theorem nameText_of_isSubAction {s : String} (h : isSubAction s) : NameText s := by
  obtain ⟨hne, hchars⟩ := isSubAction_iff.mp h
  refine ⟨hne, fun c hc => ?_⟩
  rcases hchars c hc with hlower | hdigit | hhyphen
  · exact .inr (.inl hlower)
  · exact .inr (.inr (.inl hdigit))
  · exact .inr (.inr (.inr (.inr (.inr hhyphen))))

/-- Either there is no slash to split at, or the token is put together again around the first. -/
theorem split_cases (token : String) :
    ('/' ∉ token.toList ∧ split token = (token, none)) ∨
      ∃ base action, '/' ∉ base.toList ∧ token = base ++ "/" ++ action ∧
        split token = (base, some action) := by
  by_cases h : '/' ∈ token.toList
  · obtain ⟨base, action, htoken, hbase⟩ := List.eq_append_cons_of_mem h
    have hbase' : '/' ∉ (String.ofList base).toList := by simpa using hbase
    have hjoined : token = String.ofList base ++ "/" ++ String.ofList action := by
      rw [← String.toList_inj, htoken]
      simp
    exact .inr ⟨_, _, hbase', hjoined, hjoined ▸ split_append_slash hbase'⟩
  · exact .inl ⟨h, split_of_not_mem h⟩

/-- What stands before the first slash, and what follows it if there is one. -/
inductive Parts : String → String → Option String → Prop where
  | bare {base : String} (h : '/' ∉ base.toList) : Parts base base none
  | compound {base : String} (h : '/' ∉ base.toList) (action : String) :
    Parts (base ++ "/" ++ action) base (some action)

theorem parts_split (token : String) : Parts token (split token).1 (split token).2 := by
  rcases split_cases token with ⟨hslash, hsplit⟩ | ⟨base, action, hslash, htoken, hsplit⟩
  · rw [hsplit]
    exact .bare hslash
  · rw [hsplit, htoken]
    exact .compound hslash action

theorem parts_iff {base : String} {action : Option String} :
    Parts token base action ↔ split token = (base, action) := by
  constructor
  · intro h
    cases h with
    | bare hslash => exact split_of_not_mem hslash
    | compound hslash => exact split_append_slash hslash
  · intro h
    simpa [h] using parts_split token

theorem slash_mem_iff : '/' ∈ token.toList ↔ (split token).2.isSome := by
  rcases split_cases token with ⟨hslash, hsplit⟩ | ⟨base, action, -, rfl, hsplit⟩
  · simp [hslash, hsplit]
  · simp [hsplit]

end ResourceToken

/-- A token says no more than the two parts that it is split into. -/
theorem ResourceRequest.grantToken_of_split {r : ResourceRequest} {token : String}
    (h : ResourceToken.split token = (r.resourceType, r.subAction)) : r.grantToken = token := by
  rcases ResourceToken.split_cases token with ⟨-, hsplit⟩ | ⟨base, action, -, rfl, hsplit⟩
  all_goals
    rw [hsplit, Prod.mk.injEq] at h
    simp [grantToken, ← h.1, ← h.2]

/-- Names hold no slash, so the first slash of the token is the one that was put there. -/
theorem ResourceRequest.split_grantToken {r : ResourceRequest} (h : r.WellFormed) :
    ResourceToken.split r.grantToken = (r.resourceType, r.subAction) := by
  have hslash : '/' ∉ r.resourceType.toList := (h.names _ (by simp [segments])).slash_not_mem
  unfold grantToken
  cases r.subAction with
  | none => exact ResourceToken.split_of_not_mem hslash
  | some action => exact ResourceToken.split_append_slash hslash

end NamespaceAccess
