import NamespaceAccess.Engine

/-!
Rules consulted in order until one of them does not abstain; when all abstain, access is refused.
-/
namespace NamespaceAccess

/-- A rule answers a request and may change the world it shares with the other rules. -/
abbrev Rule (σ : Type) := AccessRequest → Option Principal → σ → AccessResult × σ

/-- What engines share: the collaborators, what was asked of them and what was recorded. -/
structure Trail (σ : Type) where
  state : σ
  lookups : List Lookup
  events : List AuditEvent

def Trail.start {σ : Type} (state : σ) : Trail σ := ⟨state, [], []⟩

def Trail.perform {σ α : Type} (c : Collaborators σ) (d : Dialogue α) (trail : Trail σ) :
    α × Trail σ :=
  let t := d.run c trail.state
  (t.result, ⟨t.state, trail.lookups ++ t.lookups, trail.events ++ t.events⟩)

def Rule.ofEngine {σ : Type} (config : EngineConfig) (c : Collaborators σ) : Rule (Trail σ) :=
  fun request principal => Trail.perform c (config.checkRequest request principal)

/-- Abstaining rules pass the request on; the first other answer, or error, is final. -/
def RuleChain.evaluate {σ : Type} (request : AccessRequest) (principal : Option Principal) :
    List (Rule σ) → σ → AccessResult × σ
  | [], world => (.ok .forbidden, world)
  | rule :: rules, world =>
    match rule request principal world with
    | (.ok .unknown, world) => evaluate request principal rules world
    | answered => answered

theorem RuleChain.evaluate_cons_of_abstains {σ : Type} {request : AccessRequest}
    {principal : Option Principal} {rule : Rule σ} {rules : List (Rule σ)} {world next : σ}
    (h : rule request principal world = (.ok .unknown, next)) :
    evaluate request principal (rule :: rules) world = evaluate request principal rules next := by
  simp only [evaluate, h]

theorem RuleChain.evaluate_cons_of_answers {σ : Type} {request : AccessRequest}
    {principal : Option Principal} {rule : Rule σ} {rules : List (Rule σ)} {world : σ}
    (h : (rule request principal world).1 ≠ .ok .unknown) :
    evaluate request principal (rule :: rules) world = rule request principal world := by
  simp only [evaluate]
  split
  · next heq => exact absurd (congrArg Prod.fst heq) h
  · rfl

end NamespaceAccess
