import NamespaceAccess.Proofs.Reading
import NamespaceAccess.RoleBinding.Validation
import NamespaceAccess.WireFormat

/-!
The records that services exchange are read back as they were written.
-/
namespace NamespaceAccess

namespace WireFormat

/-- Values are written as JSON that some text spells, and read back from it. -/
class Lawful (α : Type) [WireFormat α] : Prop where
  writable : ∀ a : α, (toJson a).Writable
  ofJson?_toJson : ∀ a : α, ofJson? (toJson a) = some a

open Lawful

theorem decode?_encode {α : Type} [WireFormat α] [Lawful α] (a : α) :
    decode? (encode a) = some a := by
  rw [decode?, encode, Json.parse?_compact (writable a)]
  exact ofJson?_toJson a

instance : Lawful String where
  writable := Json.writable_ofString
  ofJson?_toJson _ := rfl

instance {α : Type} [WireFormat α] [Lawful α] : Lawful (List α) where
  writable items := by
    refine Json.writable_array fun v hv => ?_
    obtain ⟨a, -, rfl⟩ := List.mem_map.mp hv
    exact writable a
  ofJson?_toJson items := by
    have hitems : (items.map toJson).mapM ofJson? = some (items.map id) :=
      mapM_map_eq_some fun a _ => ofJson?_toJson a
    rw [List.map_id] at hitems
    exact hitems

instance {α : Type} [DecidableEq α] [Ord α] [Std.TransOrd α] [Std.LawfulEqOrd α] [WireFormat α]
    [Lawful α] : Lawful (Std.ExtTreeSet α) where
  writable s := writable s.toList
  ofJson?_toJson s := by
    have hset : Std.ExtTreeSet.ofList s.toList = s := by
      apply Std.ExtTreeSet.ext_mem
      intro a
      rw [Std.ExtTreeSet.mem_ofList, List.contains_iff_mem, Std.ExtTreeSet.mem_toList]
    have hlist : (ofJson? (toJson s) : Option (Std.ExtTreeSet α)) =
        (ofJson? (toJson s.toList) : Option (List α)).map fun items => .ofList items := rfl
    rw [hlist, ofJson?_toJson, Option.map_some, hset]

instance : Lawful Verb where
  writable v := Json.writable_ofString v.label
  ofJson?_toJson := Verb.ofLabel?_label

instance : Lawful SubjectKind where
  writable k := Json.writable_ofString k.label
  ofJson?_toJson k := congrArg some (SubjectKind.ofLabel_label k)

instance : Lawful Subject where
  writable s := Json.writable_record (by simp [writable])
  ofJson?_toJson s := by
    have hnames : ["subjectName", "subjectType"].Nodup := by decide
    exact Json.bind_fields?_record hnames (by simp [ofJson?_toJson])

instance : Lawful Role where
  writable r := Json.writable_record (by simp [writable])
  ofJson?_toJson r := by
    have hnames : ["resourceTypes", "verbs"].Nodup := by decide
    exact Json.bind_fields?_record hnames (by simp [ofJson?_toJson])

instance : Lawful RoleBinding where
  writable b := Json.writable_record (by simp [writable])
  ofJson?_toJson b := by
    have hnames : ["namespace", "name", "subject", "role"].Nodup := by decide
    exact Json.bind_fields?_record hnames (by simp [ofJson?_toJson])

instance : Lawful Principal where
  writable p := Json.writable_record (by simp [writable])
  ofJson?_toJson p := by
    have hnames : ["username", "groups", "roles"].Nodup := by decide
    exact Json.bind_fields?_record hnames (by simp [ofJson?_toJson])

instance : Lawful Namespace where
  writable n := Json.writable_record (by simp [writable])
  ofJson?_toJson n := by
    have hnames : ["name", "cluster"].Nodup := by decide
    exact Json.bind_fields?_record hnames (by simp [ofJson?_toJson])

structure RoundTrips (α : Type) [WireFormat α] : Prop where
  decode?_encode : ∀ a : α, decode? (encode a) = some a
  encode_injective : ∀ a b : α, encode a = encode b → a = b

theorem roundTrips (α : Type) [WireFormat α] [Lawful α] : RoundTrips α where
  decode?_encode := decode?_encode
  encode_injective a b h := by
    have hread : some a = some b := by rw [← decode?_encode a, h, decode?_encode b]
    exact Option.some.inj hread

theorem parse?_encode {α : Type} [WireFormat α] [Lawful α] (a : α) :
    Json.parse? (encode a) = some (toJson a) :=
  Json.parse?_compact (writable a)

/-- Every record that services exchange is read back from its text as it was, and the text is that
of an object with one member for each field. What is decided of a binding is decided alike after it
was written and read: its subject is of the same kind, it is as valid, and it matches the same
groups. -/
theorem records_read_back :
    (RoundTrips RoleBinding ∧ RoundTrips Role ∧ RoundTrips Subject ∧ RoundTrips Principal ∧
      RoundTrips Namespace ∧ RoundTrips Verb) ∧
    (∀ b : RoleBinding, Json.parse? (encode b) = some (.record [
      ("namespace", .ofString b.namespaceName),
      ("name", .ofString b.name),
      ("subject", .record [
        ("subjectName", .ofString b.subject.name),
        ("subjectType", .ofString b.subject.kind.label)]),
      ("role", .record [
        ("resourceTypes", .array (b.role.resourceTypes.map .ofString)),
        ("verbs", .array (b.role.verbs.toList.map fun v => .ofString v.label))])])) ∧
    (∀ p : Principal, Json.parse? (encode p) = some (.record [
      ("username", .ofString p.username),
      ("groups", .array (p.groups.toList.map .ofString)),
      ("roles", .array (p.roles.toList.map .ofString))])) ∧
    (∀ n : Namespace, Json.parse? (encode n) = some (.record [
      ("name", .ofString n.name),
      ("cluster", .ofString n.cluster)])) ∧
    ∀ b : RoleBinding, ∃ again : RoleBinding, decode? (encode b) = some again ∧
      again.subject.kind = b.subject.kind ∧ again.error? = b.error? ∧
      ∀ groups, again.subject.matchesAnyGroup groups = b.subject.matchesAnyGroup groups := by
  refine ⟨⟨roundTrips _, roundTrips _, roundTrips _, roundTrips _, roundTrips _, roundTrips _⟩,
    parse?_encode, parse?_encode, parse?_encode, fun b => ?_⟩
  exact ⟨b, decode?_encode b, rfl, rfl, fun _ => rfl⟩

section sample

def quotedBinding : RoleBinding :=
  ⟨"te\"am", "a\\b\n", ⟨"gruppe ü", .unsupported⟩, ⟨["topics", "topics"], {.put, .get}⟩⟩

def quotedText : String :=
  "\x7b\"namespace\":\"te\\\"am\",\"name\":\"a\\\\b\\n\"," ++
  "\"subject\":\x7b\"subjectName\":\"gruppe ü\",\"subjectType\":\"UNSUPPORTED\"\x7d," ++
  "\"role\":\x7b\"resourceTypes\":[\"topics\",\"topics\"],\"verbs\":[\"GET\",\"PUT\"]\x7d\x7d"

/-- Quotes and line breaks are escaped, and a token that was listed twice stays twice. -/
theorem records_read_back_quoted :
    encode quotedBinding = quotedText ∧ decode? quotedText = some quotedBinding ∧
      (∀ b : RoleBinding, encode b = quotedText → b = quotedBinding) ∧
      ∃ again : RoleBinding, decode? quotedText = some again ∧
        again.error? = some (.invalidNamespace "te\"am") ∧
        again.subject.matchesAnyGroup {"gruppe ü"} = false := by
  have htext : encode quotedBinding = quotedText := by decide +kernel
  have herror : quotedBinding.error? = some (.invalidNamespace "te\"am") := by decide +kernel
  obtain ⟨⟨hbinding, -⟩, -, -, -, hdecided⟩ := records_read_back
  obtain ⟨again, hagain, -, hfault, hmatches⟩ := hdecided quotedBinding
  have hread : decode? quotedText = some quotedBinding := htext ▸ hbinding.decode?_encode _
  have hunique (b : RoleBinding) (h : encode b = quotedText) : b = quotedBinding :=
    hbinding.encode_injective _ _ (h.trans htext.symm)
  exact ⟨htext, hread, hunique, again, htext ▸ hagain, hfault.trans herror, hmatches _⟩

end sample

end WireFormat

end NamespaceAccess
