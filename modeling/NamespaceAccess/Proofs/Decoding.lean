import NamespaceAccess.Proofs.Members
import NamespaceAccess.Proofs.Parsing
import NamespaceAccess.WireFormat

/-!
A role binding is read from its own members alone, in whatever order they stand and however they are
spelled. Members that it does not know are passed over, whatever their values.
-/
namespace NamespaceAccess

theorem Verb.ofLabel?_eq_some_iff {label : String} {verb : Verb} :
    Verb.ofLabel? label = some verb ↔ label = verb.label := by
  constructor
  · intro h
    unfold Verb.ofLabel? at h
    split at h
    iterate 4
      cases h
      rfl
    contradiction
  · rintro rfl
    exact Verb.ofLabel?_label verb

theorem SubjectKind.ofLabel_eq_iff {label : String} {kind : SubjectKind} :
    SubjectKind.ofLabel label = kind ↔ (kind = .group ↔ label = "GROUP") := by
  by_cases h : label = "GROUP" <;> cases kind <;> simp [SubjectKind.ofLabel, h]

/-- Any kind of subject but one reads as unsupported. -/
def Subject.ReadFrom (v : Json) (s : Subject) : Prop :=
  ∃ kind label, v.Gives ["subjectName", "subjectType"] [.ofString s.name, kind] ∧
    kind.Names label ∧ (s.kind = .group ↔ label = "GROUP")

/-- Verbs may be repeated and stand in any order. -/
def Role.ReadFrom (v : Json) (r : Role) : Prop :=
  ∃ items verbs, v.Gives ["resourceTypes", "verbs"]
      [.array (r.resourceTypes.map .ofString), .array items] ∧
    List.Forall₂ (fun item verb => item.Names verb.label) items verbs ∧
    ∀ verb, verb ∈ r.verbs ↔ verb ∈ verbs

def RoleBinding.ReadFrom (v : Json) (b : RoleBinding) : Prop :=
  ∃ subject role, v.Gives ["namespace", "name", "subject", "role"]
      [.ofString b.namespaceName, .ofString b.name, subject, role] ∧
    b.subject.ReadFrom subject ∧ b.role.ReadFrom role

namespace WireFormat

variable {v : Json}

theorem ofJson?_string_eq_some_iff {s : String} : ofJson? v = some s ↔ v = .ofString s :=
  Json.text?_eq_some_iff

theorem ofJson?_list_eq_some_iff {α : Type} [WireFormat α] {l : List α} :
    ofJson? v = some l ↔
      ∃ items, v = .array items ∧ List.Forall₂ (fun item a => ofJson? item = some a) items l := by
  simp only [← mapM_eq_some_iff]
  cases v with
  | array items =>
    simp only [Json.array.injEq, exists_eq_left']
    rfl
  | null | bool b | number n | string s | object members =>
    refine ⟨fun h => by contradiction, ?_⟩
    rintro ⟨items, heq, -⟩
    contradiction

theorem ofJson?_texts_eq_some_iff {texts : List String} :
    ofJson? v = some texts ↔ v = .array (texts.map .ofString) := by
  have hitems (items : List Json) :
      List.Forall₂ (fun item s => ofJson? item = some s) items texts ↔
        items = texts.map .ofString := by
    simp only [ofJson?_string_eq_some_iff]
    rw [← List.forall₂_map_right_iff, List.forall₂_eq_eq_eq]
  simp only [ofJson?_list_eq_some_iff, hitems, exists_eq_right]

theorem ofJson?_verb_eq_some_iff {verb : Verb} : ofJson? v = some verb ↔ v.Names verb.label := by
  rw [← Json.variant?_eq_some_iff]
  constructor
  · intro h
    obtain ⟨label, hlabel, h⟩ := Option.bind_eq_some_iff.mp h
    rwa [← Verb.ofLabel?_eq_some_iff.mp h]
  · intro h
    exact Option.bind_eq_some_iff.mpr ⟨_, h, Verb.ofLabel?_label verb⟩

theorem ofJson?_kind_eq_some_iff {kind : SubjectKind} :
    ofJson? v = some kind ↔ ∃ label, v.Names label ∧ (kind = .group ↔ label = "GROUP") := by
  simp only [← Json.variant?_eq_some_iff, ← SubjectKind.ofLabel_eq_iff]
  exact Option.map_eq_some_iff

theorem ofJson?_verbs_eq_some_iff {verbs : VerbSet} :
    ofJson? v = some verbs ↔
      ∃ items given, v = .array items ∧
        List.Forall₂ (fun item (verb : Verb) => item.Names verb.label) items given ∧
        ∀ verb, verb ∈ verbs ↔ verb ∈ given := by
  have hset (given : List Verb) :
      Std.ExtTreeSet.ofList given = verbs ↔ ∀ verb, verb ∈ verbs ↔ verb ∈ given := by
    constructor
    · rintro rfl verb
      simp
    · intro h
      apply Std.ExtTreeSet.ext_mem
      intro verb
      simp [h]
  have hlist : (ofJson? v : Option VerbSet) =
      (ofJson? v : Option (List Verb)).map fun given => .ofList given := rfl
  rw [hlist, Option.map_eq_some_iff]
  simp only [ofJson?_list_eq_some_iff, ofJson?_verb_eq_some_iff, hset]
  constructor
  · rintro ⟨given, ⟨items, hitems, hnames⟩, hverbs⟩
    exact ⟨items, given, hitems, hnames, hverbs⟩
  · rintro ⟨items, given, hitems, hnames, hverbs⟩
    exact ⟨given, ⟨items, hitems, hnames⟩, hverbs⟩

/-- A record of two fields is read where both are given and can be read. -/
theorem bind_two_fields?_eq_some_iff {α β γ : Type} {names : List String}
    {readFirst : Json → Option α} {readSecond : Json → Option β} {make : α → β → γ} {c : γ}
    (h : v.WholeTexts) :
    (do
      let [x, y] ← v.fields? names | none
      some (make (← readFirst x) (← readSecond y))) = some c ↔
      ∃ x y a b, v.Gives names [x, y] ∧ readFirst x = some a ∧ readSecond y = some b ∧
        make a b = c := by
  simp only [← Json.fields?_eq_some_iff h]
  constructor
  · intro hread
    obtain ⟨values, hvalues, hread⟩ := Option.bind_eq_some_iff.mp hread
    split at hread
    next x y =>
      obtain ⟨a, ha, hread⟩ := Option.bind_eq_some_iff.mp hread
      obtain ⟨b, hb, hread⟩ := Option.bind_eq_some_iff.mp hread
      exact ⟨x, y, a, b, hvalues, ha, hb, Option.some.inj hread⟩
    next => contradiction
  · rintro ⟨x, y, a, b, hvalues, ha, hb, rfl⟩
    simp [hvalues, ha, hb]

theorem ofJson?_subject_eq_some_iff {s : Subject} (h : v.WholeTexts) :
    ofJson? v = some s ↔ s.ReadFrom v := by
  refine (bind_two_fields?_eq_some_iff h).trans ?_
  simp only [ofJson?_string_eq_some_iff, ofJson?_kind_eq_some_iff]
  constructor
  · rintro ⟨_, kind, name, k, hgives, rfl, ⟨label, hlabel, hkind⟩, rfl⟩
    exact ⟨kind, label, hgives, hlabel, hkind⟩
  · rintro ⟨kind, label, hgives, hlabel, hkind⟩
    exact ⟨_, kind, s.name, s.kind, hgives, rfl, ⟨label, hlabel, hkind⟩, rfl⟩

theorem ofJson?_role_eq_some_iff {r : Role} (h : v.WholeTexts) :
    ofJson? v = some r ↔ r.ReadFrom v := by
  refine (bind_two_fields?_eq_some_iff h).trans ?_
  simp only [ofJson?_texts_eq_some_iff, ofJson?_verbs_eq_some_iff]
  constructor
  · rintro ⟨_, _, types, verbs, hgives, rfl, ⟨items, given, rfl, hnames, hmem⟩, rfl⟩
    exact ⟨items, given, hgives, hnames, hmem⟩
  · rintro ⟨items, given, hgives, hnames, hmem⟩
    exact ⟨_, _, r.resourceTypes, r.verbs, hgives, rfl, ⟨items, given, rfl, hnames, hmem⟩, rfl⟩

theorem ofJson?_binding_eq_some_iff {b : RoleBinding} (h : v.WholeTexts) :
    ofJson? v = some b ↔ b.ReadFrom v := by
  simp only [RoleBinding.ReadFrom]
  constructor
  · intro hread
    obtain ⟨values, hvalues, hread⟩ := Option.bind_eq_some_iff.mp hread
    rw [Json.fields?_eq_some_iff h] at hvalues
    have hwhole := hvalues.wholeTexts h
    split at hread
    next namespaceName name subject role =>
      obtain ⟨ns, hns, hread⟩ := Option.bind_eq_some_iff.mp hread
      obtain ⟨n, hn, hread⟩ := Option.bind_eq_some_iff.mp hread
      obtain ⟨s, hs, hread⟩ := Option.bind_eq_some_iff.mp hread
      obtain ⟨r, hr, hread⟩ := Option.bind_eq_some_iff.mp hread
      cases hread
      rw [ofJson?_subject_eq_some_iff (hwhole subject (by simp))] at hs
      rw [ofJson?_role_eq_some_iff (hwhole role (by simp))] at hr
      rw [ofJson?_string_eq_some_iff.mp hns, ofJson?_string_eq_some_iff.mp hn] at hvalues
      exact ⟨subject, role, hvalues, hs, hr⟩
    next => contradiction
  · rintro ⟨subject, role, hvalues, hs, hr⟩
    have hwhole := hvalues.wholeTexts h
    have hname (s : String) : ofJson? (Json.ofString s) = some s :=
      ofJson?_string_eq_some_iff.mpr rfl
    rw [← ofJson?_subject_eq_some_iff (hwhole subject (by simp))] at hs
    rw [← ofJson?_role_eq_some_iff (hwhole role (by simp))] at hr
    rw [← Json.fields?_eq_some_iff h] at hvalues
    refine Option.bind_eq_some_iff.mpr ⟨_, hvalues, ?_⟩
    simp [hname, hs, hr]

/-- What is read depends only on what the value gives for the fields. -/
theorem ofJson?_binding_congr {w : Json}
    (h : v.fields? ["namespace", "name", "subject", "role"] =
      w.fields? ["namespace", "name", "subject", "role"]) :
    (ofJson? v : Option RoleBinding) = ofJson? w :=
  congrArg (Option.bind · _) h

section text

variable {α : Type} [WireFormat α] {text : String}

theorem decode?_of_spells (h : v.Spells text) : decode? text = (ofJson? v : Option α) := by
  rw [decode?, Json.parse?_of_spells h]
  rfl

theorem decode?_append_of_blank {after : String} (h : v.Spells text)
    (hafter : ∀ c ∈ after.toList, JsonToken.isBlankChar c) :
    decode? (text ++ after) = (decode? text : Option α) := by
  rw [decode?, decode?, Json.parse?_append_of_blank h hafter, Json.parse?_of_spells h]

theorem decode?_append_eq_none {members : List (JsonText × Json)} {after : String}
    (h : (Json.object members).Spells text)
    (hafter : ¬ ∀ c ∈ after.toList, JsonToken.isBlankChar c) :
    (decode? (text ++ after) : Option α) = none := by
  rw [decode?, Json.parse?_append_eq_none h hafter]
  rfl

end text

end WireFormat

section faults

variable {members : List (JsonText × Json)}

theorem Subject.ReadFrom.not_faulty {s : Subject} (h : s.ReadFrom (.object members)) :
    ¬ Json.Faulty ["subjectName", "subjectType"] members := by
  obtain ⟨kind, label, hgives, hlabel, -⟩ := h
  refine hgives.not_faulty ?_
  cases hlabel <;> simp [Json.ofString]

theorem Role.ReadFrom.not_faulty {r : Role} (h : r.ReadFrom (.object members)) :
    ¬ Json.Faulty ["resourceTypes", "verbs"] members := by
  obtain ⟨items, verbs, hgives, -⟩ := h
  exact hgives.not_faulty (by simp)

theorem Subject.not_readFrom_null (s : Subject) : ¬ s.ReadFrom .null := by
  rintro ⟨_, _, hgives, -⟩
  cases hgives

theorem Role.not_readFrom_null (r : Role) : ¬ r.ReadFrom .null := by
  rintro ⟨_, _, hgives, -⟩
  cases hgives

theorem RoleBinding.ReadFrom.not_faulty {b : RoleBinding} (h : b.ReadFrom (.object members)) :
    ¬ Json.Faulty ["namespace", "name", "subject", "role"] members := by
  obtain ⟨subject, role, hgives, hs, hr⟩ := h
  refine hgives.not_faulty ?_
  simp only [List.mem_cons, List.not_mem_nil, or_false]
  rintro (h | h | rfl | rfl)
  · contradiction
  · contradiction
  · exact b.subject.not_readFrom_null hs
  · exact b.role.not_readFrom_null hr

/-- The subject and the role are read from the values of the members with their names. -/
theorem RoleBinding.ReadFrom.of_once {b : RoleBinding} (h : b.ReadFrom (.object members))
    {v : Json} :
    (Json.Once members "subject" v → b.subject.ReadFrom v) ∧
      (Json.Once members "role" v → b.role.ReadFrom v) := by
  obtain ⟨subject, role, hgives, hs, hr⟩ := h
  simp only [Json.gives_object_iff, List.forall₂_cons, List.forall₂_nil_right_iff] at hgives
  obtain ⟨-, -, hsubject, hrole, -⟩ := hgives
  exact ⟨fun hv => hv.eq_of_mem hsubject.2 ▸ hs, fun hv => hv.eq_of_mem hrole.2 ▸ hr⟩

end faults

theorem Subject.not_matchesAnyGroup_of_unsupported {s : Subject} (h : s.kind = .unsupported)
    (groups : GroupSet) : s.matchesAnyGroup groups = false := by
  simp [Subject.matchesAnyGroup, h]

theorem Role.ReadFrom.exists_verb {r : Role} {v types : Json} {items : List Json} {label : String}
    (h : r.ReadFrom v) (hgives : v.Gives ["resourceTypes", "verbs"] [types, .array items])
    (hlabel : .ofString label ∈ items) : ∃ verb : Verb, label = verb.label := by
  obtain ⟨given, verbs, hread, hnames, -⟩ := h
  cases hread.unique hgives
  obtain ⟨verb, -, hverb⟩ := exists_of_forall₂ hnames hlabel
  cases hverb
  exact ⟨verb, rfl⟩

namespace WireFormat

/-- What decides how the text of an object with these members is read as a role binding. -/
structure DecodedByMembers (members : List (JsonText × Json)) (text : String) : Prop where
  spells_one : ∀ v : Json, v.Spells text → v = .object members
  decode?_iff : ∀ b : RoleBinding, decode? text = some b ↔ b.ReadFrom (.object members)
  of_array : ∀ values arrayText,
    List.Forall₂ (Json.Once members) ["namespace", "name", "subject", "role"] values →
    (Json.array values).Spells arrayText →
    (decode? text : Option RoleBinding) = decode? arrayText
  known_only : ∀ others otherText, (Json.object others).Spells otherText →
    (Json.object others).WholeTexts →
    (∀ name ∈ ["namespace", "name", "subject", "role"], ∀ v,
      Json.Once members name v ↔ Json.Once others name v) →
    (decode? text : Option RoleBinding) = decode? otherText
  faulty : Json.Faulty ["namespace", "name", "subject", "role"] members →
    (decode? text : Option RoleBinding) = none
  faulty_subject : ∀ inner, Json.Once members "subject" (.object inner) →
    Json.Faulty ["subjectName", "subjectType"] inner →
    (decode? text : Option RoleBinding) = none
  faulty_role : ∀ inner, Json.Once members "role" (.object inner) →
    Json.Faulty ["resourceTypes", "verbs"] inner →
    (decode? text : Option RoleBinding) = none
  blanks_after : ∀ after : String, (∀ c ∈ after.toList, JsonToken.isBlankChar c) →
    (decode? (text ++ after) : Option RoleBinding) = decode? text
  more_after : ∀ after : String, (¬ ∀ c ∈ after.toList, JsonToken.isBlankChar c) →
    (decode? (text ++ after) : Option RoleBinding) = none
  unknown_kind : ∀ namespaceName name subjectName label subject role r,
    List.Forall₂ (Json.Once members) ["namespace", "name", "subject", "role"]
      [.ofString namespaceName, .ofString name, subject, role] →
    subject.Gives ["subjectName", "subjectType"] [.ofString subjectName, .ofString label] →
    Role.ReadFrom role r → label ≠ "GROUP" →
    decode? text = some (⟨namespaceName, name, ⟨subjectName, .unsupported⟩, r⟩ : RoleBinding) ∧
      ∀ groups, (⟨subjectName, .unsupported⟩ : Subject).matchesAnyGroup groups = false
  unknown_verb : ∀ role types items label, Json.Once members "role" role →
    role.Gives ["resourceTypes", "verbs"] [types, .array items] → .ofString label ∈ items →
    (∀ verb : Verb, label ≠ verb.label) → (decode? text : Option RoleBinding) = none

section members

variable {members : List (JsonText × Json)} {text : String}
  (htext : (Json.object members).Spells text) (hwhole : (Json.object members).WholeTexts)
include htext hwhole

theorem decode?_binding_eq_some_iff {b : RoleBinding} :
    decode? text = some b ↔ b.ReadFrom (.object members) := by
  rw [decode?_of_spells htext]
  exact ofJson?_binding_eq_some_iff hwhole

theorem decode?_binding_eq_none (h : ∀ b : RoleBinding, ¬ b.ReadFrom (.object members)) :
    (decode? text : Option RoleBinding) = none :=
  Option.eq_none_iff_forall_ne_some.mpr fun b hb =>
    h b ((decode?_binding_eq_some_iff htext hwhole).mp hb)

theorem decode?_binding_eq_of_array {values : List Json} {arrayText : String}
    (hvalues : List.Forall₂ (Json.Once members) ["namespace", "name", "subject", "role"] values)
    (harray : (Json.array values).Spells arrayText) :
    (decode? text : Option RoleBinding) = decode? arrayText := by
  rw [decode?_of_spells htext, decode?_of_spells harray]
  refine ofJson?_binding_congr ?_
  rw [(Json.fields?_eq_some_iff hwhole).mpr (.object hvalues)]
  exact (if_pos hvalues.length_eq.symm).symm

theorem decode?_binding_eq_of_same_members {others : List (JsonText × Json)} {otherText : String}
    (hothers : (Json.object others).Spells otherText) (hwhole' : (Json.object others).WholeTexts)
    (hsame : ∀ name ∈ ["namespace", "name", "subject", "role"], ∀ v,
      Json.Once members name v ↔ Json.Once others name v) :
    (decode? text : Option RoleBinding) = decode? otherText := by
  rw [decode?_of_spells htext, decode?_of_spells hothers]
  exact ofJson?_binding_congr (Json.fields?_object_congr hwhole hwhole' hsame)

theorem decode?_binding_of_unknown_kind {namespaceName name subjectName label : String}
    {subject role : Json} {r : Role}
    (hvalues : List.Forall₂ (Json.Once members) ["namespace", "name", "subject", "role"]
      [.ofString namespaceName, .ofString name, subject, role])
    (hsubject : subject.Gives ["subjectName", "subjectType"]
      [.ofString subjectName, .ofString label])
    (hrole : Role.ReadFrom role r) (hlabel : label ≠ "GROUP") :
    decode? text = some (⟨namespaceName, name, ⟨subjectName, .unsupported⟩, r⟩ : RoleBinding) := by
  have hread : Subject.ReadFrom subject ⟨subjectName, .unsupported⟩ :=
    ⟨_, label, hsubject, .text, by simp [hlabel]⟩
  exact (decode?_binding_eq_some_iff htext hwhole).mpr
    ⟨subject, role, .object hvalues, hread, hrole⟩

theorem decode?_binding_eq_none_of_unknown_verb {role types : Json} {items : List Json}
    {label : String}
    (honce : Json.Once members "role" role)
    (hgives : role.Gives ["resourceTypes", "verbs"] [types, .array items])
    (hmem : .ofString label ∈ items) (hunknown : ∀ verb : Verb, label ≠ verb.label) :
    (decode? text : Option RoleBinding) = none := by
  refine decode?_binding_eq_none htext hwhole fun b hb => ?_
  obtain ⟨verb, hverb⟩ := (hb.of_once.2 honce).exists_verb hgives hmem
  exact hunknown verb hverb

end members

/-- A role binding is read from any text that spells an object exactly where each of its members
occurs once and has a value that can be read, and so for the members of its subject and its role;
order, blanks, escapes and other members make no difference, and the array of the four values reads
alike. A member that is missing, repeated or `null` is refused, and so is anything but blanks after
the object. A kind of subject that is not known is read and matches no groups; a verb that is not
known is refused. -/
theorem decoding_by_known_members {members : List (JsonText × Json)} {text : String}
    (htext : (Json.object members).Spells text) (hwhole : (Json.object members).WholeTexts) :
    DecodedByMembers members text where
  spells_one _ hv := hv.unique htext
  decode?_iff _ := decode?_binding_eq_some_iff htext hwhole
  of_array _ _ := decode?_binding_eq_of_array htext hwhole
  known_only _ _ := decode?_binding_eq_of_same_members htext hwhole
  faulty hfaulty := decode?_binding_eq_none htext hwhole fun _ hb => hb.not_faulty hfaulty
  faulty_subject _ honce hfaulty := decode?_binding_eq_none htext hwhole fun _ hb =>
    (hb.of_once.1 honce).not_faulty hfaulty
  faulty_role _ honce hfaulty := decode?_binding_eq_none htext hwhole fun _ hb =>
    (hb.of_once.2 honce).not_faulty hfaulty
  blanks_after _ hafter := decode?_append_of_blank htext hafter
  more_after _ hafter := decode?_append_eq_none htext hafter
  unknown_kind _ _ _ _ _ _ _ hvalues hsubject hrole hlabel :=
    ⟨decode?_binding_of_unknown_kind htext hwhole hvalues hsubject hrole hlabel,
      Subject.not_matchesAnyGroup_of_unsupported rfl⟩
  unknown_verb _ _ _ _ := decode?_binding_eq_none_of_unknown_verb htext hwhole

def crowdedRole : Json :=
  .object [
    (some "verbs", .array [.ofString "GET", .object [(some "PUT", .null)]]),
    (some "name", .ofNat 0),
    (some "resourceTypes", .array [.ofString "pods/exec"])]

/-- The members of a binding among others, of which one occurs twice and one holds a member that
has a name like theirs. -/
def crowded : List (JsonText × Json) :=
  [(some "role", crowdedRole),
    (some "x", .array [.object [(some "role", .null)], .array []]),
    (some "subject", .array [.ofString "ops", .ofString "USER"]),
    (some "name", .ofString "r"),
    (some "x", .null),
    (some "namespace", .ofString "team-a")]

def crowdedText : String :=
  " \x7b \"role\" : \x7b\"verbs\":[\"GET\", \x7b\"PUT\": null\x7d],\n\"name\":0," ++
  "\"resourceTypes\": [\"pods\\/exec\"]\x7d, \"x\":[\x7b\"role\":null\x7d, [] ]," ++
  "\"subject\":[\"ops\",\"USER\"], \"n\\u0061me\":\"r\", \"x\":null, " ++
  "\"namespace\":\"team-a\"\x7d\n"

def crowdedBinding : RoleBinding where
  namespaceName := "team-a"
  name := "r"
  subject := ⟨"ops", .unsupported⟩
  role := ⟨["pods/exec"], .ofList [Verb.get, Verb.put]⟩

theorem decoding_by_known_members_crowded :
    (Json.object crowded).Spells crowdedText ∧ (Json.object crowded).WholeTexts ∧
      decode? crowdedText = some crowdedBinding ∧
      (decode? (crowdedText ++ "]") : Option RoleBinding) = none := by
  have hlex : JsonToken.lex crowdedText = some (Json.object crowded).tokens := by decide +kernel
  have htext : (Json.object crowded).Spells crowdedText := JsonToken.lexed_of_lex hlex
  have hwhole : (Json.object crowded).WholeTexts := by
    unfold Json.WholeTexts
    decide +kernel
  have hdecoded := decoding_by_known_members htext hwhole
  have honce : List.Forall₂ (Json.Once crowded) ["namespace", "name", "subject", "role"]
      [.ofString "team-a", .ofString "r", .array [.ofString "ops", .ofString "USER"],
        crowdedRole] := by
    simp [Json.Once, crowded]
  have hsubject : Subject.ReadFrom (.array [.ofString "ops", .ofString "USER"])
      crowdedBinding.subject :=
    ⟨_, "USER", .array rfl, .text, by decide⟩
  have hrole : Role.ReadFrom crowdedRole crowdedBinding.role := by
    refine ⟨[.ofString "GET", .object [(some "PUT", .null)]], [.get, .put], .object ?_,
      .cons .text (.cons .key .nil), fun verb => ?_⟩
    · simp [Json.Once, crowdedBinding]
    · simp [crowdedBinding]
  have hread : crowdedBinding.ReadFrom (.object crowded) :=
    ⟨_, _, .object honce, hsubject, hrole⟩
  have hsign : ¬ ∀ c ∈ "]".toList, JsonToken.isBlankChar c := by simp [JsonToken.isBlankChar]
  exact ⟨htext, hwhole, (hdecoded.decode?_iff _).mpr hread, hdecoded.more_after "]" hsign⟩

end WireFormat

end NamespaceAccess
