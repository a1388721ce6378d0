import NamespaceAccess.Catalog
import NamespaceAccess.Dialogue
import NamespaceAccess.GrantSet
import NamespaceAccess.Principal

/-!
Access decisions for requests inside a namespace, and the part of the catalog a caller may see.
-/
namespace NamespaceAccess

structure EngineConfig where
  /-- The members of this group need no grants. -/
  adminGroup : String
  /-- Whether a request's verb has to be granted together with its resource token. -/
  enforceVerbs : Bool
  deriving DecidableEq, Repr

structure AccessRequest where
  path : String
  verb : Option Verb
  deriving DecidableEq, Repr

inductive Ground where
  | unauthenticated | unclassifiedPath | admin | grantMissing | verbNotGranted | grantMatched
  deriving DecidableEq, Repr

def Ground.label : Ground → String
  | unauthenticated => "unauthenticated"
  | unclassifiedPath => "unclassified_path"
  | admin => "admin"
  | grantMissing => "grant_missing"
  | verbNotGranted => "verb_not_granted"
  | grantMatched => "grant_matched"

structure Verdict where
  decision : Decision
  ground : Ground
  deriving DecidableEq, Repr

abbrev Judgement := Except AccessError Verdict

def Judgement.result (j : Judgement) : AccessResult := j.map Verdict.decision

/-- An error is its own reason. -/
def Judgement.reason : Judgement → String
  | .ok v => v.ground.label
  | .error e => e.label

namespace AccessRequest

/-- The path is read only for authenticated callers. -/
def parsedFor (request : AccessRequest) (principal : Option Principal) : Option ResourceRequest :=
  principal.bind fun _ => RequestPath.classify request.path

def event (request : AccessRequest) (principal : Option Principal) (j : Judgement) :
    DecisionEvent where
  path := request.path
  username := principal.map Principal.username
  namespaceName := (request.parsedFor principal).map ResourceRequest.namespaceName
  resourceType := (request.parsedFor principal).map ResourceRequest.resourceType
  resourceName := (request.parsedFor principal).bind ResourceRequest.resourceName
  subAction := (request.parsedFor principal).bind ResourceRequest.subAction
  verb := request.verb
  outcome := outcomeLabel j.result
  reason := j.reason

end AccessRequest

namespace EngineConfig

def computeRoles (config : EngineConfig) (groups : GroupSet) : Std.ExtTreeSet String :=
  NamespaceAccess.computeRoles groups config.adminGroup

def authenticate (config : EngineConfig) (username : String) (groups : GroupSet) : Principal :=
  Principal.authenticate username groups config.adminGroup

/-- Roles are derived from the groups anew; those the principal carries are not consulted. -/
def isAdmin (config : EngineConfig) (p : Principal) : Bool :=
  (config.computeRoles p.groups).contains adminRole

@[simp] theorem isAdmin_iff {config : EngineConfig} {p : Principal} :
    config.isAdmin p ↔ config.adminGroup ∈ p.groups := by
  simp [isAdmin, computeRoles]

end EngineConfig

/-- The verb counts only where verbs are enforced. -/
def GrantSet.judge (g : GrantSet) (enforceVerbs : Bool) (r : ResourceRequest)
    (verb : Option Verb) : Judgement :=
  if g.isEmpty then .error (.denied (.forbidden r.namespaceName))
  else if !g.permits r none then .ok ⟨.unknown, .grantMissing⟩
  else if g.permits r (if enforceVerbs then verb else none) then .ok ⟨.allowed, .grantMatched⟩
  else .ok ⟨.unknown, .verbNotGranted⟩

namespace EngineConfig

/-- A missing namespace is reported before anything about the caller is considered, and bindings are
looked up only for callers who are not admins. -/
def judge (config : EngineConfig) (p : Principal) (r : ResourceRequest) (verb : Option Verb) :
    Dialogue Judgement :=
  .findNamespace r.namespaceName fun
    | .error e => .done (.error (.lookupFailed e))
    | .ok none => .done (.error (.denied (.unknown r.namespaceName)))
    | .ok (some _) =>
      if config.isAdmin p then .done (.ok ⟨.allowed, .admin⟩)
      else .findBindings p.groups fun
        | .error e => .done (.error (.lookupFailed e))
        | .ok bindings =>
          .done ((GrantSet.build r.namespaceName p.groups bindings).judge config.enforceVerbs r verb)

def judgement (config : EngineConfig) (request : AccessRequest) (principal : Option Principal) :
    Dialogue Judgement :=
  match principal, request.parsedFor principal with
  | none, _ => .done (.ok ⟨.unknown, .unauthenticated⟩)
  | some _, none => .done (.ok ⟨.unknown, .unclassifiedPath⟩)
  | some p, some r => config.judge p r request.verb

/-- Every request is recorded, whatever becomes of it. -/
def checkRequest (config : EngineConfig) (request : AccessRequest) (principal : Option Principal) :
    Dialogue AccessResult := do
  let j ← config.judgement request principal
  .record (.decision (request.event principal j)) (.done j.result)

def checkSecurity (config : EngineConfig) (path : String) (principal : Option Principal) :
    Dialogue AccessResult :=
  config.checkRequest ⟨path, none⟩ principal

def listAs (scope : ListingScope) (principal : Option Principal)
    (visible : List ResourceDefinition) :
    Dialogue (Except LookupError (List ResourceDefinition)) :=
  let event : ListingEvent :=
    { username := principal.map Principal.username
      scope := scope
      visible := visible.map ResourceDefinition.path }
  .record (.listing event) (.done (.ok visible))

/-- Callers outside the admin group see the kinds they are granted in any namespace; a listing that
fails is not recorded. -/
def listCatalog (config : EngineConfig) (principal : Option Principal) :
    Dialogue (Except LookupError (List ResourceDefinition)) :=
  match principal with
  | none => listAs .anonymous none Catalog.all
  | some p =>
    if config.isAdmin p then listAs .admin principal Catalog.all
    else .findBindings p.groups fun
      | .error e => .done (.error e)
      | .ok bindings =>
        listAs .granted principal (Catalog.withPaths (GrantSet.unscopedTokens p.groups bindings))

end EngineConfig

end NamespaceAccess
