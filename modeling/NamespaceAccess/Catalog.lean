import NamespaceAccess.Text
import Std.Data.ExtTreeSet

/-!
The resource kinds the service manages, in the order in which they are listed.
-/
namespace NamespaceAccess

structure ResourceDefinition where
  kind : String
  namespaced : Bool
  /-- Whether instances can be imported from a backing cluster. -/
  synchronizable : Bool
  /-- The segment that stands for the kind in request paths and in grants. -/
  path : String
  names : List String
  deriving DecidableEq, Repr

/-- A definition answers to its path, its aliases and its kind in any ASCII case. -/
def ResourceDefinition.answersTo (d : ResourceDefinition) (name : String) : Bool :=
  d.path == name || d.names.contains name || equalsIgnoringAsciiCase d.kind name

namespace Catalog

def accessControlEntry : ResourceDefinition where
  kind := "AccessControlEntry"
  namespaced := true
  synchronizable := false
  path := "acls"
  names := ["acls", "acl", "ac"]

def connector : ResourceDefinition where
  kind := "Connector"
  namespaced := true
  synchronizable := true
  path := "connectors"
  names := ["connects", "connect", "co"]

def kafkaStream : ResourceDefinition where
  kind := "KafkaStream"
  namespaced := true
  synchronizable := false
  path := "streams"
  names := ["streams", "stream", "st"]

def roleBinding : ResourceDefinition where
  kind := "RoleBinding"
  namespaced := true
  synchronizable := false
  path := "role-bindings"
  names := ["rolebindings", "rolebinding", "rb"]

def resourceQuota : ResourceDefinition where
  kind := "ResourceQuota"
  namespaced := true
  synchronizable := false
  path := "resource-quotas"
  names := ["resource-quotas", "resource-quota", "quotas", "quota", "qu"]

def connectCluster : ResourceDefinition where
  kind := "ConnectCluster"
  namespaced := true
  synchronizable := false
  path := "connect-clusters"
  names := ["connect-clusters", "connect-cluster", "cc"]

def topic : ResourceDefinition where
  kind := "Topic"
  namespaced := true
  synchronizable := true
  path := "topics"
  names := ["topics", "topic", "to"]

/-- Namespaces are the only kind that lives outside a namespace. -/
def namespaces : ResourceDefinition where
  kind := "Namespace"
  namespaced := false
  synchronizable := false
  path := "namespaces"
  names := ["namespaces", "namespace", "ns"]

def schema : ResourceDefinition where
  kind := "Schema"
  namespaced := true
  synchronizable := false
  path := "schemas"
  names := ["schemas", "schema", "sc"]

def all : List ResourceDefinition :=
  [accessControlEntry, connector, kafkaStream, roleBinding, resourceQuota, connectCluster, topic,
    namespaces, schema]

def withPaths (paths : Std.ExtTreeSet String) : List ResourceDefinition :=
  all.filter fun d => paths.contains d.path

def find? (path : String) : Option ResourceDefinition := all.find? fun d => d.path == path

def answering (name : String) : List ResourceDefinition := all.filter fun d => d.answersTo name

/-- A path names its own entry before any alias or kind is considered. -/
def resolve (name : String) : Option ResourceDefinition :=
  find? name <|> all.find? fun d => d.answersTo name

theorem find?_some {path : String} {d : ResourceDefinition} (h : find? path = some d) :
    d ∈ all ∧ d.path = path :=
  ⟨List.mem_of_find?_eq_some h, by simpa using List.find?_some h⟩

theorem nodup_all : all.Nodup := by decide

/-- No two entries share a path, so every entry is found under its own. -/
theorem find?_path {d : ResourceDefinition} (h : d ∈ all) : find? d.path = some d := by
  revert d
  decide

theorem find?_eq_some_iff {path : String} {d : ResourceDefinition} :
    find? path = some d ↔ d ∈ all ∧ d.path = path := by
  constructor
  · exact find?_some
  · rintro ⟨h, rfl⟩
    exact find?_path h

end Catalog

end NamespaceAccess
