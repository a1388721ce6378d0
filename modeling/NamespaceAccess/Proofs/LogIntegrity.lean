import NamespaceAccess.Audit.Log
import NamespaceAccess.Proofs.Reading
import Std.Data.String.ToNat

/-!
The audit log cannot be forged: whatever texts the events hold, each event stands on a line of its
own, and the lines give back the events.
-/
namespace NamespaceAccess

namespace Json

def nat? : Json → Option Nat
  | number n => n.toNat?
  | _ => none

def texts? (v : Json) : Option (List String) := v.items?.bind fun items => items.mapM text?

def orNull? {α : Type} (read : Json → Option α) : Json → Option (Option α)
  | null => some none
  | v => (read v).map some

theorem nat?_ofNat (n : Nat) : (ofNat n).nat? = some n := Nat.toNat?_repr n

theorem text?_ofString (s : String) : (ofString s).text? = some s := rfl

theorem texts?_array (texts : List String) : (array (texts.map ofString)).texts? = some texts := by
  have htexts : (texts.map ofString).mapM text? = some (texts.map id) :=
    mapM_map_eq_some fun s _ => text?_ofString s
  rw [List.map_id] at htexts
  exact htexts

/-- An absent text and an empty one stay apart. -/
theorem orNull?_ofOption_ofString (text : Option String) :
    (ofOption ofString text).orNull? text? = some text := by
  cases text <;> rfl

end Json

def ListingScope.ofLabel? : String → Option ListingScope
  | "anonymous" => some anonymous
  | "admin" => some admin
  | "granted" => some granted
  | _ => none

theorem ListingScope.ofLabel?_label (s : ListingScope) : ofLabel? s.label = some s := by
  cases s <;> rfl

namespace AuditRecord

theorem writable_toJson (r : AuditRecord) : r.toJson.Writable := by
  have htext := Json.writable_ofOption Json.writable_ofString
  obtain ⟨t, e | e⟩ := r
  · refine Json.writable_record ?_
    simp [Json.writable_ofString, Json.writable_ofNat, htext]
  · refine Json.writable_record ?_
    have hvisible : (Json.array (e.visible.map Json.ofString)).Writable := by
      refine Json.writable_array fun v hv => ?_
      obtain ⟨path, -, rfl⟩ := List.mem_map.mp hv
      exact Json.writable_ofString path
    simp [Json.writable_ofString, Json.writable_ofNat, htext, hvisible]

section reading

def kind? (v : Json) : Option String := do
  let [kind] ← v.fields? ["event"] | none
  kind.text?

def decision? (v : Json) : Option AuditRecord := do
  let [_, timestamp, path, username, namespaceName, resourceType, resourceName, subAction, verb,
    outcome, reason] ← v.fields? ["event", "timestamp_ms", "path", "username", "namespace",
      "resource_type", "resource_name", "sub_action", "verb", "outcome", "reason"] | none
  let event : DecisionEvent := {
    path := ← path.text?
    username := ← username.orNull? Json.text?
    namespaceName := ← namespaceName.orNull? Json.text?
    resourceType := ← resourceType.orNull? Json.text?
    resourceName := ← resourceName.orNull? Json.text?
    subAction := ← subAction.orNull? Json.text?
    verb := ← verb.orNull? fun v => v.text?.bind Verb.ofLabel?
    outcome := ← outcome.text?
    reason := ← reason.text? }
  some ⟨← timestamp.nat?, .decision event⟩

def listing? (v : Json) : Option AuditRecord := do
  let [_, timestamp, username, scope, visible] ←
    v.fields? ["event", "timestamp_ms", "username", "scope", "visible"] | none
  let event : ListingEvent := {
    username := ← username.orNull? Json.text?
    scope := ← scope.text?.bind ListingScope.ofLabel?
    visible := ← visible.texts? }
  some ⟨← timestamp.nat?, .listing event⟩

/-- The record that an object tells of, its fields found by their names. -/
def ofJson? (v : Json) : Option AuditRecord :=
  match kind? v with
  | some "authz_decision" => decision? v
  | some "catalog_listing" => listing? v
  | _ => none

theorem orNull?_verb (verb : Option Verb) :
    (Json.ofOption Json.ofString (verb.map Verb.label)).orNull?
      (fun v => v.text?.bind Verb.ofLabel?) = some verb := by
  cases verb with
  | none => rfl
  | some v => cases v <;> rfl

theorem kind?_record {kind : String} {members : List (String × Json)}
    (h : (members.map Prod.fst).Nodup) (hkind : ("event", Json.ofString kind) ∈ members) :
    kind? (.record members) = some kind := by
  have hasked : [("event", Json.ofString kind)] ⊆ members := by simpa using hkind
  have hfields := Json.fields?_record h hasked
  simp only [List.map_cons, List.map_nil] at hfields
  simp [kind?, hfields, Json.text?_ofString]

theorem decision?_toJson (t : Nat) (e : DecisionEvent) :
    decision? (toJson ⟨t, .decision e⟩) = some ⟨t, .decision e⟩ := by
  unfold decision? toJson
  refine Json.bind_fields?_record (by simp) ?_
  simp [Json.text?_ofString, Json.nat?_ofNat, Json.orNull?_ofOption_ofString, orNull?_verb]

theorem listing?_toJson (t : Nat) (e : ListingEvent) :
    listing? (toJson ⟨t, .listing e⟩) = some ⟨t, .listing e⟩ := by
  unfold listing? toJson
  refine Json.bind_fields?_record (by simp) ?_
  simp [Json.text?_ofString, Json.nat?_ofNat, Json.orNull?_ofOption_ofString, Json.texts?_array,
    ListingScope.ofLabel?_label]

theorem ofJson?_toJson (r : AuditRecord) : ofJson? r.toJson = some r := by
  obtain ⟨t, e | e⟩ := r
  · have hkind : kind? (toJson ⟨t, .decision e⟩) = some "authz_decision" := by
      unfold toJson
      exact kind?_record (by simp) (by simp)
    simp only [ofJson?, hkind, decision?_toJson]
  · have hkind : kind? (toJson ⟨t, .listing e⟩) = some "catalog_listing" := by
      unfold toJson
      exact kind?_record (by simp) (by simp)
    simp only [ofJson?, hkind, listing?_toJson]

end reading

theorem parse?_line (r : AuditRecord) : Json.parse? r.line = some r.toJson :=
  Json.parse?_compact r.writable_toJson

theorem line_injective : Function.Injective line := by
  intro r s h
  have hjson : r.toJson = s.toJson := by
    rw [← Option.some_inj, ← parse?_line r, h, parse?_line]
  rw [← Option.some_inj, ← ofJson?_toJson r, hjson, ofJson?_toJson]

theorem le_toNat_of_mem_line {r : AuditRecord} {c : Char} (hc : c ∈ r.line.toList) :
    0x20 ≤ c.toNat :=
  Json.le_toNat_of_mem_compact r.writable_toJson hc

theorem lineFeed_not_mem_line (r : AuditRecord) : '\n' ∉ r.line.toList :=
  fun h => absurd (le_toNat_of_mem_line h) (by decide)

end AuditRecord

namespace AuditLog

/-- The lines of a log; what stands behind the last line feed is none. -/
def lines (log : String) : List String :=
  (log.toList.splitOn '\n').dropLast.map String.ofList

def EndsWithLine (log : String) : Prop := log = "" ∨ ∃ front, log = front ++ "\n"

variable {log : String}

theorem endsWithLine_append_line (log line : String) : EndsWithLine (log ++ line ++ "\n") :=
  .inr ⟨_, rfl⟩

theorem lines_append_line (h : EndsWithLine log) {line : String} (hline : '\n' ∉ line.toList) :
    lines (log ++ line ++ "\n") = lines log ++ [line] := by
  have hlineFeed : "\n".toList = ['\n'] := String.toList_ofList
  rcases h with rfl | ⟨front, rfl⟩ <;>
    simp [lines, hlineFeed, List.splitOn_append_cons_self, List.splitOn_eq_singleton hline]

theorem append_cons (log : String) (r : AuditRecord) (records : List AuditRecord) :
    append log (r :: records) = append (log ++ r.line ++ "\n") records := rfl

theorem append_eq_join (log : String) (records : List AuditRecord) :
    append log records = log ++ String.join (records.map fun r => r.line ++ "\n") := by
  induction records generalizing log with
  | nil => simp [append]
  | cons r records ih => simp [append_cons, ih, String.append_assoc]

theorem endsWithLine_append (h : EndsWithLine log) (records : List AuditRecord) :
    EndsWithLine (append log records) := by
  induction records generalizing log with
  | nil => exact h
  | cons r records ih => exact ih (endsWithLine_append_line log r.line)

theorem lines_append (h : EndsWithLine log) (records : List AuditRecord) :
    lines (append log records) = lines log ++ records.map AuditRecord.line := by
  induction records generalizing log with
  | nil => simp [append]
  | cons r records ih =>
    calc lines (append log (r :: records))
      _ = lines (log ++ r.line ++ "\n") ++ records.map AuditRecord.line :=
        ih (endsWithLine_append_line log r.line)
      _ = lines log ++ [r.line] ++ records.map AuditRecord.line := by
        rw [lines_append_line h r.lineFeed_not_mem_line]
      _ = lines log ++ (r :: records).map AuditRecord.line := by simp

theorem append_injective (h : EndsWithLine log) : Function.Injective (append log) := by
  intro records others heq
  have hlines := congrArg lines heq
  rw [lines_append h, lines_append h, List.append_cancel_left_eq] at hlines
  exact List.map_injective_iff.mpr AuditRecord.line_injective hlines

/-- Events are appended to a log of whole lines, one line for each, and the log stays one of whole
lines. The lines hold no control characters, and each reads as the object of its event, from which
the event is found again. So no event can forge, split or hide another: logs that go on alike
recorded the same events. -/
theorem append_keeps_integrity (h : EndsWithLine log) (records : List AuditRecord) :
    append log records = log ++ String.join (records.map fun r => r.line ++ "\n") ∧
    EndsWithLine (append log records) ∧
    lines (append log records) = lines log ++ records.map AuditRecord.line ∧
    (∀ r ∈ records, (∀ c ∈ r.line.toList, 0x20 ≤ c.toNat) ∧
      Json.parse? r.line = some r.toJson ∧ AuditRecord.ofJson? r.toJson = some r) ∧
    ∀ others, append log others = append log records → others = records := by
  refine ⟨append_eq_join log records, endsWithLine_append h records, lines_append h records,
    fun r _ => ?_, fun others heq => append_injective h heq⟩
  exact ⟨fun c hc => AuditRecord.le_toNat_of_mem_line hc, r.parse?_line, r.ofJson?_toJson⟩

/-- A path that spells a record behind a line feed, and a user name that ends in a backslash, stay
within their lines. -/
theorem append_keeps_integrity_forgedLine :
    EndsWithLine "old\n" ∧
    lines (append "old\n" [
      ⟨7, .decision ⟨"/v1\n\x7b\"outcome\":\"allowed\"\x7d", some "ann\\", none, none, none,
        none, some .get, "unknown", "unclassified"⟩⟩,
      ⟨8, .listing ⟨none, .anonymous, []⟩⟩]) =
    lines "old\n" ++ [
      "\x7b\"event\":\"authz_decision\",\"timestamp_ms\":7," ++
        "\"path\":\"/v1\\n\x7b\\\"outcome\\\":\\\"allowed\\\"\x7d\",\"username\":\"ann\\\\\"," ++
        "\"namespace\":null,\"resource_type\":null,\"resource_name\":null,\"sub_action\":null," ++
        "\"verb\":\"GET\",\"outcome\":\"unknown\",\"reason\":\"unclassified\"\x7d",
      "\x7b\"event\":\"catalog_listing\",\"timestamp_ms\":8,\"username\":null," ++
        "\"scope\":\"anonymous\",\"visible\":[]\x7d"] := by
  have hend : EndsWithLine "old\n" := .inr ⟨"old", by decide⟩
  exact ⟨hend, (append_keeps_integrity hend _).2.2.1.trans (by decide +kernel)⟩

end AuditLog

end NamespaceAccess
