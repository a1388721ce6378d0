import NamespaceAccess.Audit.Event
import NamespaceAccess.Json.Value

/-!
The audit log: one JSON object on each line, appended in the order of the events.
-/
namespace NamespaceAccess

structure AuditRecord where
  /-- Milliseconds since the epoch. -/
  timestamp : Nat
  event : AuditEvent
  deriving DecidableEq, Repr

namespace AuditRecord

def toJson (r : AuditRecord) : Json :=
  let text := Json.ofOption Json.ofString
  match r.event with
  | .decision e => .record [
      ("event", Json.ofString "authz_decision"),
      ("timestamp_ms", Json.ofNat r.timestamp),
      ("path", Json.ofString e.path),
      ("username", text e.username),
      ("namespace", text e.namespaceName),
      ("resource_type", text e.resourceType),
      ("resource_name", text e.resourceName),
      ("sub_action", text e.subAction),
      ("verb", text (e.verb.map Verb.label)),
      ("outcome", Json.ofString e.outcome),
      ("reason", Json.ofString e.reason)]
  | .listing e => .record [
      ("event", Json.ofString "catalog_listing"),
      ("timestamp_ms", Json.ofNat r.timestamp),
      ("username", text e.username),
      ("scope", Json.ofString e.scope.label),
      ("visible", .array (e.visible.map Json.ofString))]

def line (r : AuditRecord) : String := r.toJson.compact

end AuditRecord

/-- A log only grows: what it holds already stays in front. That is text; old content that is not
UTF-8 is left out of account. -/
def AuditLog.append (log : String) (records : List AuditRecord) : String :=
  records.foldl (fun log r => log ++ r.line ++ "\n") log

end NamespaceAccess
