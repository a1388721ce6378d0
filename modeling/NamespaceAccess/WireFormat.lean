import NamespaceAccess.Dialogue
import NamespaceAccess.Json.Reader
import NamespaceAccess.Json.Record
import NamespaceAccess.Principal

/-!
The JSON form of the records that services exchange.
-/
namespace NamespaceAccess

class WireFormat (α : Type) where
  toJson : α → Json
  ofJson? : Json → Option α

namespace WireFormat

def encode {α : Type} [WireFormat α] (a : α) : String := (toJson a).compact

def decode? {α : Type} [WireFormat α] (text : String) : Option α :=
  (Json.parse? text).bind ofJson?

instance : WireFormat String where
  toJson := Json.ofString
  ofJson? := Json.text?

instance {α : Type} [WireFormat α] : WireFormat (List α) where
  toJson items := .array (items.map toJson)
  ofJson? v := v.items?.bind fun items => items.mapM ofJson?

/-- Sets are written in order and may be read in any order, with repetitions. -/
instance {α : Type} [Ord α] [Std.TransOrd α] [WireFormat α] : WireFormat (Std.ExtTreeSet α) where
  toJson s := toJson s.toList
  ofJson? v := (ofJson? v : Option (List α)).map fun items => .ofList items

instance : WireFormat Verb where
  toJson v := Json.ofString v.label
  ofJson? v := v.variant?.bind Verb.ofLabel?

/-- A kind of subject that is not known reads as unsupported. -/
instance : WireFormat SubjectKind where
  toJson k := Json.ofString k.label
  ofJson? v := v.variant?.map SubjectKind.ofLabel

instance : WireFormat Subject where
  toJson s := .record [("subjectName", toJson s.name), ("subjectType", toJson s.kind)]
  ofJson? v := do
    let [name, kind] ← v.fields? ["subjectName", "subjectType"] | none
    some ⟨← ofJson? name, ← ofJson? kind⟩

instance : WireFormat Role where
  toJson r := .record [("resourceTypes", toJson r.resourceTypes), ("verbs", toJson r.verbs)]
  ofJson? v := do
    let [resourceTypes, verbs] ← v.fields? ["resourceTypes", "verbs"] | none
    some ⟨← ofJson? resourceTypes, ← ofJson? verbs⟩

instance : WireFormat RoleBinding where
  toJson b := .record [("namespace", toJson b.namespaceName), ("name", toJson b.name),
    ("subject", toJson b.subject), ("role", toJson b.role)]
  ofJson? v := do
    let [namespaceName, name, subject, role] ←
      v.fields? ["namespace", "name", "subject", "role"] | none
    some ⟨← ofJson? namespaceName, ← ofJson? name, ← ofJson? subject, ← ofJson? role⟩

instance : WireFormat Principal where
  toJson p := .record [("username", toJson p.username), ("groups", toJson p.groups),
    ("roles", toJson p.roles)]
  ofJson? v := do
    let [username, groups, roles] ← v.fields? ["username", "groups", "roles"] | none
    some ⟨← ofJson? username, ← ofJson? groups, ← ofJson? roles⟩

instance : WireFormat Namespace where
  toJson n := .record [("name", toJson n.name), ("cluster", toJson n.cluster)]
  ofJson? v := do
    let [name, cluster] ← v.fields? ["name", "cluster"] | none
    some ⟨← ofJson? name, ← ofJson? cluster⟩

end WireFormat

/-- What a client is sent when a namespace is denied. -/
def NamespaceDenial.Response.toJson (r : NamespaceDenial.Response) : Json :=
  .record [("status", Json.ofNat r.status), ("reason", Json.ofString r.reason),
    ("namespace", Json.ofString r.namespaceName), ("message", Json.ofString r.message)]

end NamespaceAccess
