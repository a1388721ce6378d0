import NamespaceAccess.Proofs.FirstFault
import NamespaceAccess.Proofs.Tokens

/-!
The rules on role bindings, and what is said of a binding that breaks one. The rules are gone
through in their order, and the first that is broken is the one reported.
-/
namespace NamespaceAccess

namespace ResourceToken

structure SubActionText (s : String) : Prop where
  nonempty : s ≠ ""
  chars : ∀ c ∈ s.toList, ('a' ≤ c ∧ c ≤ 'z') ∨ ('0' ≤ c ∧ c ≤ '9') ∨ c = '-'

theorem subActionText_iff {s : String} : SubActionText s ↔ isSubAction s := by
  rw [isSubAction_iff]
  exact ⟨fun h => ⟨h.nonempty, h.chars⟩, fun h => ⟨h.1, h.2⟩⟩

inductive Grantable : String → Prop where
  | kind {entry : ResourceDefinition} (hentry : entry ∈ Catalog.all) (hscope : entry.namespaced) :
    Grantable entry.path
  | subAction {entry : ResourceDefinition} {action : String} (hentry : entry ∈ Catalog.all)
    (hscope : entry.namespaced) (haction : SubActionText action) :
    Grantable (entry.path ++ "/" ++ action)

/-- Why a token cannot be granted. The kind is looked at first, and only a kind that lives in
namespaces lets the sub-action be looked at. -/
inductive Refused (token : String) : BindingError → Prop where
  | unknown {base : String} {action : Option String} (hparts : Parts token base action)
    (h : ∀ entry ∈ Catalog.all, entry.path ≠ base) : Refused token (.unknownResourceType token)
  | notNamespaced {entry : ResourceDefinition} {action : Option String}
    (hparts : Parts token entry.path action) (hentry : entry ∈ Catalog.all)
    (h : entry.namespaced = false) : Refused token (.notNamespaced token)
  | subAction {entry : ResourceDefinition} {action : String}
    (hparts : Parts token entry.path (some action)) (hentry : entry ∈ Catalog.all)
    (hscope : entry.namespaced) (h : ¬ SubActionText action) :
    Refused token (.invalidSubAction token)

variable {token base : String} {action : Option String} {entry : ResourceDefinition}
  {e : BindingError}

theorem slash_not_mem_path (h : entry ∈ Catalog.all) : '/' ∉ entry.path.toList :=
  (Catalog.nameText_path h).slash_not_mem

theorem error?_of_unknown (hparts : Parts token base action)
    (h : ∀ entry ∈ Catalog.all, entry.path ≠ base) :
    error? token = some (.unknownResourceType token) := by
  have hfind : Catalog.find? base = none := by
    rw [Option.eq_none_iff_forall_ne_some]
    intro entry hentry
    obtain ⟨hmem, hpath⟩ := Catalog.find?_some hentry
    exact h entry hmem hpath
  simp [error?, parts_iff.mp hparts, hfind]

theorem error?_of_notNamespaced (hparts : Parts token entry.path action)
    (hentry : entry ∈ Catalog.all) (hscope : entry.namespaced = false) :
    error? token = some (.notNamespaced token) := by
  simp [error?, parts_iff.mp hparts, Catalog.find?_path hentry, hscope]

theorem error?_of_namespaced (hparts : Parts token entry.path action)
    (hentry : entry ∈ Catalog.all) (hscope : entry.namespaced) :
    error? token = if action.all isSubAction then none else some (.invalidSubAction token) := by
  simp [error?, parts_iff.mp hparts, Catalog.find?_path hentry, hscope]

theorem Grantable.error?_eq (h : Grantable token) : error? token = none := by
  cases h with
  | kind hentry hscope =>
    simp [error?_of_namespaced (.bare (slash_not_mem_path hentry)) hentry hscope]
  | subAction hentry hscope haction =>
    have hparts := Parts.compound (slash_not_mem_path hentry) ‹String›
    simp [error?_of_namespaced hparts hentry hscope, subActionText_iff.mp haction]

theorem Refused.error?_eq (h : Refused token e) : error? token = some e := by
  cases h with
  | unknown hparts h => exact error?_of_unknown hparts h
  | notNamespaced hparts hentry h => exact error?_of_notNamespaced hparts hentry h
  | subAction hparts hentry hscope h =>
    have haction : isSubAction _ = false := Bool.eq_false_iff.mpr (mt subActionText_iff.mpr h)
    simp [error?_of_namespaced hparts hentry hscope, haction]

/-- Every token is put into one of the four classes by its two parts. -/
theorem grantable_or_refused (token : String) : Grantable token ∨ ∃ e, Refused token e := by
  have hparts := parts_split token
  by_cases hbase : ∃ entry ∈ Catalog.all, entry.path = (split token).1
  case neg => exact .inr ⟨_, .unknown hparts (by simpa using hbase)⟩
  case pos =>
    obtain ⟨entry, hentry, hpath⟩ := hbase
    rw [← hpath] at hparts
    cases hscope : entry.namespaced with
    | false => exact .inr ⟨_, .notNamespaced hparts hentry hscope⟩
    | true =>
      cases haction : (split token).2 with
      | none =>
        rw [haction] at hparts
        cases hparts
        exact .inl (.kind hentry hscope)
      | some action =>
        rw [haction] at hparts
        by_cases htext : SubActionText action
        · cases hparts
          exact .inl (.subAction hentry hscope htext)
        · exact .inr ⟨_, .subAction hparts hentry hscope htext⟩

theorem firstFault : FirstFault error? Grantable Refused where
  of_sound := Grantable.error?_eq
  of_refused := Refused.error?_eq
  covers := grantable_or_refused

end ResourceToken

namespace RoleBinding

structure Sound (b : RoleBinding) : Prop where
  namespaceName : NameText b.namespaceName
  name : ∃ c ∈ b.name.toList, ¬ WhiteSpace c
  verbs : b.role.verbs ≠ ∅
  tokens : ∀ token ∈ b.role.resourceTypes, ResourceToken.Grantable token

/-- The first rule that is broken. Tokens are looked at in the order in which they are listed. -/
inductive Refused (b : RoleBinding) : BindingError → Prop where
  | namespaceName (h : ¬ NameText b.namespaceName) : Refused b (.invalidNamespace b.namespaceName)
  | name (hnamespace : NameText b.namespaceName) (h : ∀ c ∈ b.name.toList, WhiteSpace c) :
    Refused b .missingName
  | verbs (hnamespace : NameText b.namespaceName)
    (hname : ∃ c ∈ b.name.toList, ¬ WhiteSpace c) (h : b.role.verbs = ∅) :
    Refused b (.noVerbs b.name)
  | token (hnamespace : NameText b.namespaceName)
    (hname : ∃ c ∈ b.name.toList, ¬ WhiteSpace c) (hverbs : b.role.verbs ≠ ∅)
    {before after : List String} {token : String} {e : BindingError}
    (htokens : b.role.resourceTypes = before ++ token :: after)
    (hbefore : ∀ t ∈ before, ResourceToken.Grantable t) (h : ResourceToken.Refused token e) :
    Refused b e

variable {b : RoleBinding} {e : BindingError}

theorem isBlank_iff {s : String} : isBlank s ↔ ∀ c ∈ s.toList, WhiteSpace c := by
  simp [isBlank, isWhiteSpace_iff]

theorem isBlank_eq_false_iff {s : String} :
    isBlank s = false ↔ ∃ c ∈ s.toList, ¬ WhiteSpace c := by
  rw [Bool.eq_false_iff, ne_eq, isBlank_iff]
  simp

/-- Past the first three rules the tokens decide. -/
theorem error?_of_tokens (hnamespace : NameText b.namespaceName)
    (hname : ∃ c ∈ b.name.toList, ¬ WhiteSpace c) (hverbs : b.role.verbs ≠ ∅) :
    b.error? = b.role.resourceTypes.findSome? ResourceToken.error? := by
  have hverbs : b.role.verbs.isEmpty = false := by simpa using hverbs
  simp [error?, nameText_iff.mp hnamespace, isBlank_eq_false_iff.mpr hname, hverbs]

theorem Sound.error?_eq (h : b.Sound) : b.error? = none := by
  rw [error?_of_tokens h.namespaceName h.name h.verbs, List.findSome?_eq_none_iff]
  exact fun token htoken => (h.tokens token htoken).error?_eq

theorem Refused.error?_eq (h : b.Refused e) : b.error? = some e := by
  cases h with
  | namespaceName h =>
    have hname : isName b.namespaceName = false := Bool.eq_false_iff.mpr (mt nameText_iff.mpr h)
    simp [error?, hname]
  | name hnamespace h =>
    simp [error?, nameText_iff.mp hnamespace, isBlank_iff.mpr h]
  | verbs hnamespace hname h =>
    simp [error?, nameText_iff.mp hnamespace, isBlank_eq_false_iff.mpr hname, h]
  | token hnamespace hname hverbs htokens hbefore h =>
    rw [error?_of_tokens hnamespace hname hverbs, List.findSome?_eq_some_iff]
    exact ⟨_, _, _, htokens, h.error?_eq, fun t ht => (hbefore t ht).error?_eq⟩

theorem sound_or_refused (b : RoleBinding) : b.Sound ∨ ∃ e, b.Refused e := by
  by_cases hnamespace : NameText b.namespaceName
  case neg => exact .inr ⟨_, .namespaceName hnamespace⟩
  case pos =>
    by_cases hname : ∃ c ∈ b.name.toList, ¬ WhiteSpace c
    case neg => exact .inr ⟨_, .name hnamespace (by simpa using hname)⟩
    case pos =>
      by_cases hverbs : b.role.verbs = ∅
      case pos => exact .inr ⟨_, .verbs hnamespace hname hverbs⟩
      case neg =>
        cases htokens : b.role.resourceTypes.findSome? ResourceToken.error? with
        | none =>
          rw [List.findSome?_eq_none_iff] at htokens
          exact .inl ⟨hnamespace, hname, hverbs, fun token htoken =>
            ResourceToken.firstFault.eq_none_iff.mp (htokens token htoken)⟩
        | some e =>
          obtain ⟨before, token, after, heq, htoken, hbefore⟩ :=
            List.findSome?_eq_some_iff.mp htokens
          exact .inr ⟨e, .token hnamespace hname hverbs heq
            (fun t ht => ResourceToken.firstFault.eq_none_iff.mp (hbefore t ht))
            (ResourceToken.firstFault.eq_some_iff.mp htoken)⟩

theorem firstFault : FirstFault error? Sound Refused where
  of_sound := Sound.error?_eq
  of_refused := Refused.error?_eq
  covers := sound_or_refused

/-- A binding is accepted exactly if it breaks no rule, and of any other binding exactly one thing
is said, the first rule that it breaks. -/
theorem first_broken_rule (b : RoleBinding) :
    (b.error? = none ↔ b.Sound) ∧ (∀ e, b.error? = some e ↔ b.Refused e) ∧
      (¬ b.Sound ↔ ∃! e, b.Refused e) :=
  ⟨firstFault.eq_none_iff, fun _ => firstFault.eq_some_iff, firstFault.not_sound_iff⟩

section sample

def resourcesOfTeam (tokens : List String) : RoleBinding :=
  ⟨"team", "b", ⟨"devs", .group⟩, ⟨tokens, {.get}⟩⟩

/-- The second slash is part of the sub-action, which may hold none. -/
theorem first_broken_rule_secondSlash :
    let b := resourcesOfTeam ["topics/offsets", "topics/a/b", "widgets"]
    b.Refused (.invalidSubAction "topics/a/b") ∧
      b.error? = some (.invalidSubAction "topics/a/b") ∧ ¬ b.Sound ∧ (∃! e, b.Refused e) ∧
      (resourcesOfTeam ["topics/offsets"]).Sound ∧
      (resourcesOfTeam ["topics/offsets"]).error? = none := by
  intro b
  have hname : NameText "team" := by decide +kernel
  have hb : ∃ c ∈ "b".toList, ¬ WhiteSpace c := ⟨'b', by decide, by decide +kernel⟩
  have hverbs : ({.get} : VerbSet) ≠ ∅ := by decide +kernel
  have hgrantable : ∀ token ∈ ["topics/offsets"], ResourceToken.Grantable token := by
    have haction : ResourceToken.SubActionText "offsets" :=
      ResourceToken.subActionText_iff.mpr (by decide +kernel)
    have htoken : Catalog.topic.path ++ "/" ++ "offsets" = "topics/offsets" := by decide +kernel
    have hoffsets : ResourceToken.Grantable "topics/offsets" :=
      htoken ▸ .subAction (by decide) rfl haction
    simpa using hoffsets
  have hrefused : b.Refused (.invalidSubAction "topics/a/b") := by
    have hparts : ResourceToken.Parts "topics/a/b" Catalog.topic.path (some "a/b") :=
      ResourceToken.parts_iff.mpr (by decide +kernel)
    have haction : ¬ ResourceToken.SubActionText "a/b" :=
      mt ResourceToken.subActionText_iff.mp (by decide +kernel)
    exact .token hname hb hverbs rfl hgrantable (.subAction hparts (by decide) rfl haction)
  have hsound : (resourcesOfTeam ["topics/offsets"]).Sound := ⟨hname, hb, hverbs, hgrantable⟩
  obtain ⟨haccepted, hreported, hunique⟩ := first_broken_rule b
  have hunsound : ¬ b.Sound := by
    intro hsound
    cases ((hreported _).mpr hrefused).symm.trans (haccepted.mpr hsound)
  exact ⟨hrefused, (hreported _).mpr hrefused, hunsound, hunique.mp hunsound, hsound,
    (first_broken_rule _).1.mpr hsound⟩

end sample

end RoleBinding

end NamespaceAccess
