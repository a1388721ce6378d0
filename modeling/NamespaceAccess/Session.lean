import NamespaceAccess.Audit.Log
import NamespaceAccess.Directory
import NamespaceAccess.RuleChain
import NamespaceAccess.Settings.Load

/-!
Sessions: one engine over collaborators that are changed, made to fail and consulted step by step.
-/
namespace NamespaceAccess.Session

/-- What stands behind the lookups: a directory, or plain lists that accept every binding and answer
with all of them. -/
inductive Backend where
  | directory (d : Directory)
  | lists (namespaces : List Namespace) (bindings : List RoleBinding)

namespace Backend

def findNamespace (name : String) : Backend → Option Namespace
  | directory d => d.findNamespace name
  | lists namespaces _ => namespaces.find? fun n => n.name == name

def findBindings (groups : GroupSet) : Backend → List RoleBinding
  | directory d => d.findBindings groups
  | lists _ bindings => bindings

def insertNamespace (n : Namespace) : Backend → Backend
  | directory d => directory (d.insertNamespace n)
  | lists namespaces bindings => lists (namespaces ++ [n]) bindings

def insertBinding (b : RoleBinding) : Backend → Except BindingError Backend
  | directory d => (d.insertBinding b).map directory
  | lists namespaces bindings => .ok (lists namespaces (bindings ++ [b]))

def removeNamespace (name : String) : Backend → Option Namespace × Backend
  | directory d =>
    let (removed, d) := d.removeNamespace name
    (removed, directory d)
  | lists namespaces bindings =>
    (namespaces.find? fun n => n.name == name,
      lists (namespaces.eraseP fun n => n.name == name) bindings)

def removeBinding (key : BindingKey) : Backend → Option RoleBinding × Backend
  | directory d =>
    let (removed, d) := d.removeBinding key
    (removed, directory d)
  | lists namespaces bindings =>
    (bindings.find? fun b => b.key == key, lists namespaces (bindings.eraseP fun b => b.key == key))

end Backend

structure Outage where
  namespaces : Option LookupError
  bindings : Option LookupError

structure World where
  backend : Backend
  outage : Outage

def World.start (backend : Backend) : World := ⟨backend, ⟨none, none⟩⟩

def collaborators : Collaborators World where
  findNamespace name w :=
    (match w.outage.namespaces with
      | some e => .error e
      | none => .ok (w.backend.findNamespace name), w)
  findBindings groups w :=
    (match w.outage.bindings with
      | some e => .error e
      | none => .ok (w.backend.findBindings groups), w)

inductive Caller where
  | unauthenticated
  | identified (username : String) (groups : GroupSet)
  /-- With roles as given, whether or not they follow from the groups. -/
  | claiming (principal : Principal)

def Caller.principal (config : EngineConfig) : Caller → Option Principal
  | unauthenticated => none
  | identified username groups => some (config.authenticate username groups)
  | claiming p => some p

inductive ChainRule where
  | engine
  | fixed (result : AccessResult)

inductive Step where
  | insertNamespace (n : Namespace)
  | removeNamespace (name : String)
  | findNamespace (name : String)
  | insertBinding (b : RoleBinding)
  | removeBinding (key : BindingKey)
  | findBindings (groups : GroupSet)
  | fail (outage : Outage)
  | config
  | authenticate (username : String) (groups : GroupSet)
  | computeRoles (groups : GroupSet)
  | checkSecurity (path : String) (caller : Caller)
  | checkRequest (request : AccessRequest) (caller : Caller)
  | listCatalog (caller : Caller)
  | chain (rules : List ChainRule) (request : AccessRequest) (caller : Caller)

inductive Answer where
  | nothing
  | namespaceRemoved (removed : Option Namespace)
  | namespaceFound (found : NamespaceAnswer)
  | bindingRefused (error : BindingError)
  | bindingRemoved (removed : Option RoleBinding)
  | bindingsFound (found : BindingsAnswer)
  | config (config : EngineConfig)
  | authenticated (principal : Principal)
  | roles (roles : Std.ExtTreeSet String)
  | access (result : AccessResult)
  | catalog (visible : Except LookupError (List ResourceDefinition))
  /-- With the number of times that each fixed rule was consulted, in their order. -/
  | chained (result : AccessResult) (fixedRuleCalls : List Nat)

/-- What the rules of a chain share: the trail of the engines, and the positions of the fixed rules
that were consulted. -/
structure ChainWorld where
  trail : Trail World
  consulted : List Nat

def ChainRule.toRule (config : EngineConfig) (position : Nat) : ChainRule → Rule ChainWorld
  | engine => fun request principal w =>
    let (result, trail) := Rule.ofEngine config collaborators request principal w.trail
    (result, { w with trail := trail })
  | fixed result => fun _ _ w => (result, { w with consulted := position :: w.consulted })

def ChainRule.isFixed : ChainRule → Bool
  | engine => false
  | fixed _ => true

def runChain (config : EngineConfig) (rules : List ChainRule) (request : AccessRequest)
    (principal : Option Principal) (w : World) : Answer × Trail World :=
  let positioned := rules.zipIdx
  let (result, after) := RuleChain.evaluate request principal
    (positioned.map fun r => r.1.toRule config r.2) ⟨Trail.start w, []⟩
  let fixedCalls := (positioned.filter (·.1.isFixed)).map fun r => after.consulted.count r.2
  (.chained result fixedCalls, after.trail)

def asking {α : Type} (answer : α → Answer) (d : Dialogue α) (w : World) : Answer × Trail World :=
  let (result, trail) := Trail.perform collaborators d (Trail.start w)
  (answer result, trail)

def changing (w : World) (answer : Answer) (backend : Backend) : Answer × Trail World :=
  (answer, Trail.start { w with backend := backend })

def perform (config : EngineConfig) (w : World) : Step → Answer × Trail World
  | .insertNamespace n => changing w .nothing (w.backend.insertNamespace n)
  | .removeNamespace name =>
    let (removed, backend) := w.backend.removeNamespace name
    changing w (.namespaceRemoved removed) backend
  | .findNamespace name => asking .namespaceFound (.findNamespace name .done) w
  | .insertBinding b =>
    match w.backend.insertBinding b with
    | .error e => (.bindingRefused e, Trail.start w)
    | .ok backend => changing w .nothing backend
  | .removeBinding key =>
    let (removed, backend) := w.backend.removeBinding key
    changing w (.bindingRemoved removed) backend
  | .findBindings groups => asking .bindingsFound (.findBindings groups .done) w
  | .fail outage => (.nothing, Trail.start { w with outage := outage })
  | .config => (.config config, Trail.start w)
  | .authenticate username groups =>
    (.authenticated (config.authenticate username groups), Trail.start w)
  | .computeRoles groups => (.roles (config.computeRoles groups), Trail.start w)
  | .checkSecurity path caller => asking .access (config.checkSecurity path (caller.principal config)) w
  | .checkRequest request caller =>
    asking .access (config.checkRequest request (caller.principal config)) w
  | .listCatalog caller => asking .catalog (config.listCatalog (caller.principal config)) w
  | .chain rules request caller => runChain config rules request (caller.principal config) w

inductive Recorder where
  | capture
  /-- Only the engines inside chains are given a sink. -/
  | captureChains
  | discard
  /-- Appended to a log that may hold something already. -/
  | file (log : String)

def Recorder.captured (step : Step) (events : List AuditEvent) : Recorder → Option (List AuditEvent)
  | capture => some events
  | captureChains =>
    match step with
    | .chain .. => some events
    | _ => some []
  | discard | file _ => none

/-- The clock stands at zero. -/
def Recorder.record (events : List AuditEvent) : Recorder → Recorder
  | file log => file (AuditLog.append log (events.map fun e => ⟨0, e⟩))
  | r => r

def Recorder.log? : Recorder → Option String
  | file log => some log
  | _ => none

structure StepReport where
  answer : Answer
  namespaceLookups : Nat
  bindingLookups : Nat
  captured : Option (List AuditEvent)

structure Report where
  steps : List StepReport
  log : Option String

structure Setup where
  config : EngineConfig
  recorder : Recorder
  backend : Backend

inductive SetupError where
  | settings (error : SettingsError)
  | sink (error : SinkError)

/-- The engine and sink that a settings document calls for, in an empty working directory. -/
def Setup.ofToml (document : String) (backend : Backend) : Except SetupError Setup :=
  match Settings.ofToml document with
  | .error e => .error (.settings e)
  | .ok s =>
    match s.audit.openSink .empty with
    | .error e => .error (.sink e)
    | .ok (.file _, _) => .ok ⟨s.engineConfig, .file "", backend⟩
    | .ok (_, _) => .ok ⟨s.engineConfig, .discard, backend⟩

def runFrom (config : EngineConfig) : World → Recorder → List Step → List StepReport → Report
  | _, recorder, [], reports => ⟨reports.reverse, recorder.log?⟩
  | w, recorder, step :: steps, reports =>
    let (answer, trail) := perform config w step
    let report : StepReport :=
      { answer := answer
        namespaceLookups := trail.lookups.countP Lookup.isNamespaceLookup
        bindingLookups := trail.lookups.countP (!Lookup.isNamespaceLookup ·)
        captured := recorder.captured step trail.events }
    runFrom config trail.state (recorder.record trail.events) steps (report :: reports)

def Setup.run (setup : Setup) (steps : List Step) : Report :=
  runFrom setup.config (World.start setup.backend) setup.recorder steps []

end NamespaceAccess.Session
