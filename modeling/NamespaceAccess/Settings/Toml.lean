import NamespaceAccess.Settings
import NamespaceAccess.Toml.Document

/-!
Settings read from the tables of a TOML document.
-/
namespace NamespaceAccess

namespace Toml.Node

def text? : Node → Option String
  | text s => some s
  | _ => none

def boolean? : Node → Option Bool
  | boolean b => some b
  | _ => none

def position? (names : List String) (items : List Node) : List (Option Node) :=
  (List.range names.length).map fun i => items[i]?

/-- The values given for a record's fields, in the order of `names`. A table has no other keys; an
array gives them by position. -/
def fields? (names : List String) : Node → Option (List (Option Node))
  | table _ entries =>
    if entries.all fun e => names.contains e.1 then some (names.map (Entries.find? entries)) else none
  | array items => some (position? names items)
  | tables elements => some (position? names (elements.map (table .declared)))
  | _ => none

/-- The name of an enumerated value, which may be written as the one key of a table, with nothing
in it. -/
def variant? : Node → Option String
  | text s => some s
  | table _ [(name, table _ [])] => some name
  | table _ [(name, array [])] => some name
  | _ => none

end Toml.Node

namespace SecuritySettings

def ofNode? (n : Toml.Node) : Option SecuritySettings := do
  let [adminGroup, enforceVerbs] ← n.fields? ["admin_group", "enforce_verbs"] | none
  let adminGroup ← (← adminGroup).text?
  let enforceVerbs ← enforceVerbs.elim (some false) (·.boolean?)
  some ⟨adminGroup, enforceVerbs⟩

end SecuritySettings

namespace AuditSettings

/-- Nothing is recorded unless a sink is chosen. -/
def default : AuditSettings := ⟨.none, none⟩

def ofNode? (n : Toml.Node) : Option AuditSettings := do
  let [sink, path] ← n.fields? ["sink", "path"] | none
  let sink ← sink.elim (some .none) fun s => s.variant?.bind SinkKind.ofLabel?
  let path ← path.elim (some none) fun p => p.text?.map some
  some ⟨sink, path⟩

end AuditSettings

namespace Settings

def ofNode? (n : Toml.Node) : Option Settings := do
  let [security, audit] ← n.fields? ["security", "audit"] | none
  let security ← SecuritySettings.ofNode? (← security)
  let audit ← audit.elim (some AuditSettings.default) AuditSettings.ofNode?
  some ⟨security, audit⟩

def parse? (document : String) : Option Settings :=
  (Toml.parse? document).bind fun t => ofNode? (.table .declared t)

end Settings

end NamespaceAccess
