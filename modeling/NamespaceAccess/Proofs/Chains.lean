import NamespaceAccess.RuleChain
import NamespaceAccess.Proofs.Recording

/-!
Chains of rules: the rules up to the first answer are consulted, each once and in order, and access
is refused where all of them abstain.
-/
namespace NamespaceAccess

/-- One rule being consulted: its place in the chain, what it answered, and the worlds before and
after. -/
structure Consultation (σ : Type) where
  position : Nat
  before : σ
  answer : AccessResult
  after : σ

namespace Rule

variable {σ : Type}

/-- The same rule, with each consultation written down beside the world. -/
def observed (position : Nat) (rule : Rule σ) : Rule (σ × List (Consultation σ)) :=
  fun request principal (world, log) =>
    let (answer, after) := rule request principal world
    (answer, (after, log ++ [⟨position, world, answer, after⟩]))

/-- Worlds that are the same in this sense make no difference to the rule, nor to what comes after
it. -/
def Respects (request : AccessRequest) (principal : Option Principal) (same : σ → σ → Prop)
    (rule : Rule σ) : Prop :=
  ∀ w w', same w w' →
    (rule request principal w).1 = (rule request principal w').1 ∧
      same (rule request principal w).2 (rule request principal w').2

end Rule

namespace RuleChain

variable {σ : Type} {request : AccessRequest} {principal : Option Principal}
  {rules others before after : List (Rule σ)} {rule : Rule σ} {world last : σ}
  {log : List (Consultation σ)} {result : AccessResult} {start : Nat}

def observedFrom (start : Nat) (rules : List (Rule σ)) : List (Rule (σ × List (Consultation σ))) :=
  (rules.zipIdx start).map fun r => r.1.observed r.2

/-- How a chain is gone through, when its first rule stands at `start`: with the consultations, the
result and the world that is left. -/
inductive Consults (request : AccessRequest) (principal : Option Principal) :
    Nat → List (Rule σ) → σ → List (Consultation σ) → AccessResult → σ → Prop where
  | exhausted {start : Nat} {world : σ} :
    Consults request principal start [] world [] (.ok .forbidden) world
  | answered {start : Nat} {rule : Rule σ} {rules : List (Rule σ)} {world next : σ}
    {answer : AccessResult} (hrule : rule request principal world = (answer, next))
    (hanswer : answer ≠ .ok .unknown) :
    Consults request principal start (rule :: rules) world [⟨start, world, answer, next⟩] answer next
  | abstained {start : Nat} {rule : Rule σ} {rules : List (Rule σ)} {world next last : σ}
    {log : List (Consultation σ)} {result : AccessResult}
    (hrule : rule request principal world = (.ok .unknown, next))
    (hrest : Consults request principal (start + 1) rules next log result last) :
    Consults request principal start (rule :: rules) world
      (⟨start, world, .ok .unknown, next⟩ :: log) result last

/-- Being observed changes nothing, and what is written down is how the chain is gone through. -/
theorem exists_consults (request : AccessRequest) (principal : Option Principal)
    (rules : List (Rule σ)) (start : Nat) (world : σ) (earlier : List (Consultation σ)) :
    ∃ log, evaluate request principal (observedFrom start rules) (world, earlier) =
        ((evaluate request principal rules world).1,
          ((evaluate request principal rules world).2, earlier ++ log)) ∧
      Consults request principal start rules world log
        (evaluate request principal rules world).1 (evaluate request principal rules world).2 := by
  induction rules generalizing start world earlier with
  | nil => exact ⟨[], by simp [observedFrom, evaluate], .exhausted⟩
  | cons rule rules ih =>
    obtain ⟨⟨answer, next⟩, hrule⟩ : ∃ outcome, rule request principal world = outcome := ⟨_, rfl⟩
    have hobserved : rule.observed start request principal (world, earlier) =
        (answer, (next, earlier ++ [⟨start, world, answer, next⟩])) := by
      simp [Rule.observed, hrule]
    have hcons : observedFrom start (rule :: rules) =
        rule.observed start :: observedFrom (start + 1) rules := by
      simp [observedFrom]
    rw [hcons]
    by_cases hanswer : answer = .ok .unknown
    · subst hanswer
      obtain ⟨log, hlog, hconsults⟩ := ih (start + 1) next
        (earlier ++ [⟨start, world, .ok .unknown, next⟩])
      rw [evaluate_cons_of_abstains hobserved, evaluate_cons_of_abstains hrule, hlog]
      exact ⟨⟨start, world, .ok .unknown, next⟩ :: log, by simp, .abstained hrule hconsults⟩
    · have hanswers : (rule request principal world).1 ≠ .ok .unknown := by simpa [hrule]
      have hanswers' : (rule.observed start request principal (world, earlier)).1 ≠
          .ok .unknown := by simpa [hobserved]
      rw [evaluate_cons_of_answers hanswers', evaluate_cons_of_answers hanswers, hobserved, hrule]
      exact ⟨[⟨start, world, answer, next⟩], rfl, .answered hrule hanswer⟩

namespace Consults

theorem asked (h : Consults request principal start rules world log result last) (i : Nat)
    (entry : Consultation σ) (hentry : log[i]? = some entry) :
    entry.position = start + i ∧ ∃ rule, rules[i]? = some rule ∧
      rule request principal entry.before = (entry.answer, entry.after) := by
  induction h generalizing i with
  | exhausted => simp at hentry
  | answered hrule hanswer =>
    cases i with
    | zero =>
      obtain rfl := by simpa using hentry
      exact ⟨rfl, _, rfl, hrule⟩
    | succ i => simp at hentry
  | abstained hrule hrest ih =>
    cases i with
    | zero =>
      obtain rfl := by simpa using hentry
      exact ⟨rfl, _, rfl, hrule⟩
    | succ i =>
      obtain ⟨hposition, hasked⟩ := ih i (by simpa using hentry)
      exact ⟨by omega, by simpa using hasked⟩

theorem worlds (h : Consults request principal start rules world log result last) :
    log.map Consultation.before ++ [last] = world :: log.map Consultation.after := by
  induction h with
  | exhausted | answered hrule hanswer => rfl
  | abstained hrule hrest ih => simp [ih]

theorem ended (h : Consults request principal start rules world log result last) :
    (log.length = rules.length ∧ (∀ entry ∈ log, entry.answer = .ok .unknown) ∧
        result = .ok .forbidden) ∨
      ∃ earlier entry, log = earlier ++ [entry] ∧ (∀ e ∈ earlier, e.answer = .ok .unknown) ∧
        entry.answer ≠ .ok .unknown ∧ result = entry.answer := by
  induction h with
  | exhausted => exact .inl ⟨rfl, by simp, rfl⟩
  | answered hrule hanswer => exact .inr ⟨[], _, rfl, by simp, hanswer, rfl⟩
  | abstained hrule hrest ih =>
    rcases ih with ⟨hlength, hall, hresult⟩ | ⟨earlier, entry, rfl, hall, hanswer, hresult⟩
    · exact .inl ⟨by simp [hlength], by simpa using hall, hresult⟩
    · exact .inr ⟨_ :: earlier, entry, rfl, by simpa using hall, hanswer, hresult⟩

theorem evaluate_append_of_abstained
    (h : Consults request principal start rules world log result last)
    (hall : ∀ entry ∈ log, entry.answer = .ok .unknown) (others : List (Rule σ)) :
    evaluate request principal (rules ++ others) world = evaluate request principal others last := by
  induction h with
  | exhausted => rfl
  | answered hrule hanswer => exact absurd (hall _ (List.mem_singleton_self _)) hanswer
  | abstained hrule hrest ih =>
    rw [List.cons_append, evaluate_cons_of_abstains hrule]
    exact ih fun entry hentry => hall entry (List.mem_cons_of_mem _ hentry)

/-- What stands behind the rules that were consulted is not looked at. -/
theorem evaluate_take_append_of_answered
    (h : Consults request principal start rules world log result last)
    (hanswered : ∃ entry ∈ log, entry.answer ≠ .ok .unknown) (others : List (Rule σ)) :
    evaluate request principal (rules.take log.length ++ others) world = (result, last) := by
  induction h with
  | exhausted => simp at hanswered
  | answered hrule hanswer =>
    simp only [List.length_singleton, List.take_succ_cons, List.take_zero, List.cons_append]
    rw [evaluate_cons_of_answers (by simpa [hrule] using hanswer), hrule]
  | abstained hrule hrest ih =>
    simp only [List.length_cons, List.take_succ_cons, List.cons_append]
    rw [evaluate_cons_of_abstains hrule]
    exact ih (by simpa using hanswered)

theorem evaluate_append_of_answered
    (h : Consults request principal start rules world log result last)
    (hanswered : ∃ entry ∈ log, entry.answer ≠ .ok .unknown) (others : List (Rule σ)) :
    evaluate request principal (rules ++ others) world = (result, last) := by
  have htake := h.evaluate_take_append_of_answered hanswered (rules.drop log.length ++ others)
  rwa [← List.append_assoc, List.take_append_drop] at htake

end Consults

section insertion

variable {same : σ → σ → Prop}

theorem fst_evaluate_congr (hrespects : ∀ rule ∈ rules, rule.Respects request principal same)
    {w w' : σ} (hsame : same w w') :
    (evaluate request principal rules w).1 = (evaluate request principal rules w').1 := by
  induction rules generalizing w w' with
  | nil => rfl
  | cons rule rules ih =>
    obtain ⟨hanswer, hnext⟩ := hrespects rule (by simp) w w' hsame
    by_cases habstains : (rule request principal w).1 = .ok .unknown
    · rw [evaluate_cons_of_abstains (Prod.ext habstains rfl),
        evaluate_cons_of_abstains (Prod.ext (hanswer.symm.trans habstains) rfl)]
      exact ih (fun other hother => hrespects other (List.mem_cons_of_mem _ hother)) hnext
    · rw [evaluate_cons_of_answers habstains, evaluate_cons_of_answers (hanswer ▸ habstains),
        hanswer]

/-- Where the new rule is reached it abstains, and what it does there makes no difference to the
rules behind it. -/
theorem fst_evaluate_insert
    (hrespects : ∀ other ∈ after, other.Respects request principal same)
    (habstains : (rule request principal (evaluate request principal before world).2).1 =
      .ok .unknown)
    (hsame : same (evaluate request principal before world).2
      (rule request principal (evaluate request principal before world).2).2) :
    (evaluate request principal (before ++ rule :: after) world).1 =
      (evaluate request principal (before ++ after) world).1 := by
  obtain ⟨log, -, hconsults⟩ := exists_consults request principal before 0 world []
  by_cases hall : ∀ entry ∈ log, entry.answer = .ok .unknown
  case pos =>
    rw [hconsults.evaluate_append_of_abstained hall, hconsults.evaluate_append_of_abstained hall,
      evaluate_cons_of_abstains (Prod.ext habstains rfl)]
    exact (fst_evaluate_congr hrespects hsame).symm
  case neg =>
    have hanswered : ∃ entry ∈ log, entry.answer ≠ .ok .unknown := by simpa using hall
    rw [hconsults.evaluate_append_of_answered hanswered,
      hconsults.evaluate_append_of_answered hanswered]

end insertion

end RuleChain

section engines

variable {σ : Type} {config : EngineConfig} {request : AccessRequest}
  {principal : Option Principal}

theorem Course.result_ne_forbidden {lookups : List Lookup} {j : Judgement}
    (h : Course config request principal lookups j) : j.result ≠ .ok .forbidden := by
  cases h <;> simp [Judgement.result, Except.map]

/-- The engine went one of its courses. All it left behind are the lookups it made on it and one
event, that of the request. -/
def Consultation.ByEngine (config : EngineConfig) (request : AccessRequest)
    (principal : Option Principal) (entry : Consultation (Trail σ)) : Prop :=
  ∃ lookups j, Course config request principal lookups j ∧ entry.answer = j.result ∧
    entry.after.lookups = entry.before.lookups ++ lookups ∧
    entry.after.events = entry.before.events ++ [.decision (request.event principal j)]

theorem Consultation.byEngine {c : Collaborators σ} {entry : Consultation (Trail σ)}
    (h : Rule.ofEngine config c request principal entry.before = (entry.answer, entry.after)) :
    entry.ByEngine config request principal := by
  obtain ⟨j, hcourse, hresult, hevents⟩ :=
    Course.of_checkRequest c entry.before.state config request principal
  obtain ⟨hanswer, hafter⟩ := Prod.mk.inj h
  refine ⟨_, j, hcourse, ?_, ?_, ?_⟩
  · rw [← hanswer, hresult]
  · rw [← hafter]
  · rw [← hafter, hevents]

/-- Engines read nothing but what their collaborators have become. -/
theorem Rule.ofEngine_respects (c : Collaborators σ) :
    (Rule.ofEngine config c).Respects request principal fun t t' => t.state = t'.state := by
  intro t t' hstate
  simp [Rule.ofEngine, Trail.perform, hstate]

end engines

namespace RuleChain

/-- The rules were consulted one after the other, each in the world that the one before it left. It
ended with the first that did not abstain, or when there was none left. -/
structure ConsultedInOrder {σ : Type} (request : AccessRequest) (principal : Option Principal)
    (rules : List (Rule σ)) (world : σ) (log : List (Consultation σ)) (result : AccessResult)
    (last : σ) : Prop where
  asked : ∀ (i : Nat) (entry : Consultation σ), log[i]? = some entry →
    entry.position = i ∧ ∃ rule, rules[i]? = some rule ∧
      rule request principal entry.before = (entry.answer, entry.after)
  worlds : log.map Consultation.before ++ [last] = world :: log.map Consultation.after
  ended : (log.length = rules.length ∧ (∀ entry ∈ log, entry.answer = .ok .unknown) ∧
      result = .ok .forbidden) ∨
    ∃ earlier entry, log = earlier ++ [entry] ∧ (∀ e ∈ earlier, e.answer = .ok .unknown) ∧
      entry.answer ≠ .ok .unknown ∧ result = entry.answer

section default

variable {σ : Type} {request : AccessRequest} {principal : Option Principal}

section

variable {rules : List (Rule σ)} {world last : σ} {log : List (Consultation σ)}
  {result : AccessResult}

theorem Consults.inOrder (h : Consults request principal 0 rules world log result last) :
    ConsultedInOrder request principal rules world log result last where
  asked i entry hentry := by simpa using h.asked i entry hentry
  worlds := h.worlds
  ended := h.ended

theorem ConsultedInOrder.exists_rule
    (h : ConsultedInOrder request principal rules world log result last) {entry : Consultation σ}
    (hentry : entry ∈ log) : ∃ rule, rules[entry.position]? = some rule ∧
      rule request principal entry.before = (entry.answer, entry.after) := by
  obtain ⟨i, hi⟩ := List.mem_iff_getElem?.mp hentry
  obtain ⟨rfl, hasked⟩ := h.asked i entry hi
  exact hasked

theorem ConsultedInOrder.result_ne_unknown
    (h : ConsultedInOrder request principal rules world log result last) :
    result ≠ .ok .unknown := by
  rcases h.ended with ⟨-, -, rfl⟩ | ⟨earlier, entry, -, -, hanswer, rfl⟩
  · simp
  · exact hanswer

end

variable {rules : List (Rule (Trail σ))} {trail last : Trail σ} {result : AccessResult}
  {log : List (Consultation (Trail σ))}

theorem ConsultedInOrder.byEngine
    (h : ConsultedInOrder request principal rules trail log result last)
    {entry : Consultation (Trail σ)} (hentry : entry ∈ log) {config : EngineConfig}
    {c : Collaborators σ} (hrule : rules[entry.position]? = some (Rule.ofEngine config c)) :
    entry.ByEngine config request principal := by
  obtain ⟨rule, hat, hasked⟩ := h.exists_rule hentry
  obtain rfl := Option.some.inj (hat.symm.trans hrule)
  exact Consultation.byEngine hasked

/-- Engines do not forbid, so the chain forbids for want of an answer only. -/
theorem ConsultedInOrder.forbidden_iff_of_engines
    (h : ConsultedInOrder request principal rules trail log result last)
    (hengines : ∀ rule ∈ rules, ∃ config c, rule = Rule.ofEngine config c) :
    result = .ok .forbidden ↔
      log.length = rules.length ∧ ∀ entry ∈ log, entry.answer = .ok .unknown := by
  rcases h.ended with ⟨hlength, hall, hresult⟩ | ⟨earlier, entry, hlog, -, hanswer, hresult⟩
  · exact iff_of_true hresult ⟨hlength, hall⟩
  · have hentry : entry ∈ log := by simp [hlog]
    refine iff_of_false ?_ fun hall => hanswer (hall.2 entry hentry)
    obtain ⟨rule, hat, hasked⟩ := h.exists_rule hentry
    obtain ⟨config, c, rfl⟩ := hengines rule (List.mem_of_getElem? hat)
    obtain ⟨lookups, j, hcourse, hj, -⟩ := Consultation.byEngine hasked
    rw [hresult, hj]
    exact hcourse.result_ne_forbidden

structure Resolution (request : AccessRequest) (principal : Option Principal)
    (rules : List (Rule (Trail σ))) (trail : Trail σ) (log : List (Consultation (Trail σ)))
    (outcome : AccessResult × Trail σ) : Prop where
  inOrder : ConsultedInOrder request principal rules trail log outcome.1 outcome.2
  decides : outcome.1 ≠ .ok .unknown
  answered : (∃ entry ∈ log, entry.answer ≠ .ok .unknown) → ∀ others,
    evaluate request principal (rules.take log.length ++ others) trail = outcome ∧
      evaluate request principal (rules ++ others) trail = outcome
  abstained : (∀ entry ∈ log, entry.answer = .ok .unknown) → ∀ others,
    evaluate request principal (rules ++ others) trail =
      evaluate request principal others outcome.2
  byEngine : ∀ entry ∈ log, ∀ config c, rules[entry.position]? = some (Rule.ofEngine config c) →
    entry.ByEngine config request principal
  inserted : ∀ (before after : List (Rule (Trail σ))) (rule : Rule (Trail σ))
    (same : Trail σ → Trail σ → Prop), rules = before ++ after →
    (∀ other ∈ after, other.Respects request principal same) →
    let reached := (evaluate request principal before trail).2
    (rule request principal reached).1 = .ok .unknown →
    same reached (rule request principal reached).2 →
    (evaluate request principal (before ++ rule :: after) trail).1 = outcome.1
  forbidden_iff : (∀ rule ∈ rules, ∃ config c, rule = Rule.ofEngine config c) →
    (outcome.1 = .ok .forbidden ↔
      log.length = rules.length ∧ ∀ entry ∈ log, entry.answer = .ok .unknown)

/-- Whatever the rules do, those up to the first answer are consulted and no others. What they leave
open is refused. -/
theorem default_deny (request : AccessRequest) (principal : Option Principal)
    (rules : List (Rule (Trail σ))) (trail : Trail σ) :
    let outcome := evaluate request principal rules trail
    ∃ log, evaluate request principal (observedFrom 0 rules) (trail, []) =
        (outcome.1, (outcome.2, log)) ∧
      Resolution request principal rules trail log outcome := by
  intro outcome
  obtain ⟨log, hlog, hconsults⟩ := exists_consults request principal rules 0 trail []
  have hinOrder := hconsults.inOrder
  refine ⟨log, hlog, hinOrder, hinOrder.result_ne_unknown, ?answered, ?abstained, ?byEngine,
    ?inserted, hinOrder.forbidden_iff_of_engines⟩
  case answered =>
    intro hanswered others
    exact ⟨hconsults.evaluate_take_append_of_answered hanswered others,
      hconsults.evaluate_append_of_answered hanswered others⟩
  case abstained => exact hconsults.evaluate_append_of_abstained
  case byEngine => exact fun entry hentry config c hrule => hinOrder.byEngine hentry hrule
  case inserted =>
    rintro before after rule same rfl hrespects reached habstains hsame
    exact fst_evaluate_insert hrespects habstains hsame

end default

section sample

/-- Nobody is known, so the engines abstain; the rule between them lets everybody in. -/
theorem default_deny_open_door :
    let request : AccessRequest := ⟨"/namespaces/team/topics", some .get⟩
    let engine := Rule.ofEngine ⟨"admins", true⟩ partlyFailing
    let openDoor : Rule (Trail Unit) := fun _ _ trail => (.ok .allowed, trail)
    (∃ log, ConsultedInOrder request none [engine, openDoor, engine] (Trail.start ()) log
      (.ok .allowed) (evaluate request none [engine] (Trail.start ())).2) ∧
    (evaluate request none [engine, engine, openDoor, engine] (Trail.start ())).1 = .ok .allowed ∧
    ∃ log, evaluate request none (observedFrom 0 [engine, engine]) (Trail.start (), []) =
        (.ok .forbidden, ((evaluate request none [engine, engine] (Trail.start ())).2, log)) ∧
      log.length = 2 ∧ ∀ entry ∈ log, entry.answer = .ok .unknown := by
  intro request engine openDoor
  have hengine : engine.Respects request none fun t t' => t.state = t'.state :=
    Rule.ofEngine_respects partlyFailing
  have hopenDoor : openDoor.Respects request none fun t t' => t.state = t'.state :=
    fun t t' hstate => ⟨rfl, hstate⟩
  obtain ⟨log, -, hresolved⟩ :=
    default_deny request none [engine, openDoor, engine] (Trail.start ())
  refine ⟨⟨log, hresolved.inOrder⟩, ?_, ?_⟩
  · have hrest : ∀ other ∈ [openDoor, engine],
        other.Respects request none fun t t' => t.state = t'.state :=
      List.forall_mem_cons.mpr ⟨hopenDoor, List.forall_mem_singleton.mpr hengine⟩
    exact hresolved.inserted [engine] [openDoor, engine] engine _ rfl hrest rfl rfl
  · obtain ⟨log, hlog, hresolved⟩ :=
      default_deny request none [engine, engine] (Trail.start ())
    have hengines : ∀ rule ∈ [engine, engine], ∃ config c, rule = Rule.ofEngine config c := by
      simp [engine]
    exact ⟨log, hlog, (hresolved.forbidden_iff hengines).mp rfl⟩

end sample

end RuleChain

end NamespaceAccess
