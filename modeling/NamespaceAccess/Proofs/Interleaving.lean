import NamespaceAccess.Proofs.Directory
import Mathlib.Control.Monad.Basic

/-!
Calls on a directory that other clients change meanwhile. Each lookup is answered at one moment, and
the changes fall before, between and after the lookups in any way.
-/
namespace NamespaceAccess

namespace Dialogue

variable {α : Type}

/-- The next step, a lookup being answered from the directory as it is at that moment. -/
def advance (d : Directory) : Dialogue α → Dialogue α
  | done result => done result
  | findNamespace name next => next (Directory.collaborators.findNamespace name d).1
  | findBindings groups next => next (Directory.collaborators.findBindings groups d).1
  | record _ next => next

def returned? : Dialogue α → Option α
  | done result => some result
  | _ => none

end Dialogue

/-- Whose turn it is: another client makes a change, or the call makes its next step. -/
inductive Turn where
  | change (change : Directory.Change)
  | call
  deriving DecidableEq

/-- The directory at one moment, and what is left of a call. -/
structure Moment (α : Type) where
  directory : Directory
  call : Dialogue α

namespace Moment

variable {α : Type}

def turn (m : Moment α) : Turn → Moment α
  | .change change => { m with directory := m.directory.apply change }
  | .call => { m with call := m.call.advance m.directory }

def run (m : Moment α) (turns : List Turn) : Moment α := turns.foldl turn m

theorem run_changes (m : Moment α) (changes : List Directory.Change) :
    m.run (changes.map .change) = ⟨changes.foldl Directory.apply m.directory, m.call⟩ := by
  induction changes generalizing m with
  | nil => rfl
  | cons change changes ih => exact ih _

/-- A step of the call sees the changes before it. -/
theorem run_changes_call (m : Moment α) (changes : List Directory.Change) (later : List Turn) :
    m.run (changes.map .change ++ .call :: later) =
      (Moment.mk (changes.foldl Directory.apply m.directory)
        (m.call.advance (changes.foldl Directory.apply m.directory))).run later := by
  rw [run, List.foldl_append]
  change (turn (m.run (changes.map .change)) .call).run later = _
  rw [run_changes]
  rfl

/-- What a call has returned stays. -/
theorem returned?_run_done (d : Directory) (result : α) (turns : List Turn) :
    ((Moment.mk d (.done result)).run turns).call.returned? = some result := by
  induction turns generalizing d with
  | nil => rfl
  | cons t turns ih => cases t <;> exact ih _

end Moment

namespace Turn

theorem changes_or_call (turns : List Turn) :
    (∃ changes : List Directory.Change, turns = changes.map .change) ∨
      ∃ (changes : List Directory.Change) (later : List Turn),
        turns = changes.map .change ++ .call :: later := by
  induction turns with
  | nil => exact .inl ⟨[], rfl⟩
  | cons t turns ih =>
    cases t with
    | call => exact .inr ⟨[], turns, rfl⟩
    | change change =>
      rcases ih with ⟨changes, rfl⟩ | ⟨changes, later, rfl⟩
      · exact .inl ⟨change :: changes, rfl⟩
      · exact .inr ⟨change :: changes, later, rfl⟩

theorem count_call_changes (changes : List Directory.Change) :
    (changes.map Turn.change).count .call = 0 := by
  simp [List.count_eq_zero]

theorem exists_call_of_lt_count {n : Nat} {turns : List Turn} (h : n < turns.count .call) :
    ∃ (changes : List Directory.Change) (later : List Turn),
      turns = changes.map .change ++ .call :: later ∧ n ≤ later.count .call := by
  rcases changes_or_call turns with ⟨changes, rfl⟩ | ⟨changes, later, rfl⟩
  · rw [count_call_changes] at h
    contradiction
  · rw [List.count_append, count_call_changes, List.count_cons_self] at h
    exact ⟨changes, later, rfl, by omega⟩

end Turn

/-- A call that has not returned yet returns only after another step. -/
theorem Moment.exists_call_of_returned {α : Type} {d : Directory} {dialogue : Dialogue α}
    {turns : List Turn} {result : α} (hcall : dialogue.returned? = none)
    (h : ((Moment.mk d dialogue).run turns).call.returned? = some result) :
    ∃ (changes : List Directory.Change) (later : List Turn),
      turns = changes.map .change ++ .call :: later ∧
        ((Moment.mk (changes.foldl Directory.apply d)
          (dialogue.advance (changes.foldl Directory.apply d))).run later).call.returned? =
            some result := by
  rcases Turn.changes_or_call turns with ⟨changes, rfl⟩ | ⟨changes, later, rfl⟩
  · rw [run_changes, hcall] at h
    contradiction
  · rw [run_changes_call] at h
    exact ⟨changes, later, rfl, h⟩

/-- It holds at every moment of a stretch of changes, the first and the last included. -/
def Directory.Throughout (d : Directory) (P : Directory → Prop) (changes : List Change) : Prop :=
  ∀ soFar, soFar <+: changes → P (soFar.foldl apply d)

def AccessRequest.tell (request : AccessRequest) (principal : Option Principal) (j : Judgement) :
    Dialogue AccessResult :=
  .record (.decision (request.event principal j)) (.done j.result)

namespace EngineConfig

variable {config : EngineConfig} {request : AccessRequest} {p : Principal} {r : ResourceRequest}

/-- What a caller outside the admin group is judged from two moments: the namespace is looked for in
the first, the bindings in the second. -/
def judgedFrom (config : EngineConfig) (p : Principal) (r : ResourceRequest) (verb : Option Verb)
    (first second : Directory) : Judgement :=
  match first.namespaces[r.namespaceName]? with
  | none => .error (.denied (.unknown r.namespaceName))
  | some _ =>
    (GrantSet.build r.namespaceName p.groups (second.findBindings p.groups)).judge
      config.enforceVerbs r verb

theorem result_judgedFrom_eq_allowed_iff {verb : Option Verb} {first second : Directory} :
    (config.judgedFrom p r verb first second).result = .ok .allowed ↔
      (∃ n, first.namespaces[r.namespaceName]? = some n) ∧
        ∃ b, second.Stores b ∧
          b.Grants r.namespaceName p.groups r.grantToken (config.requiredVerb verb) := by
  rw [← Directory.exists_grants_findBindings_iff, judgedFrom]
  cases first.namespaces[r.namespaceName]? with
  | none => simp [Judgement.result, Except.map]
  | some n => simp [result_judge_build_eq_allowed_iff]

section steps

variable (hr : RequestPath.classify request.path = some r) (ha : config.adminGroup ∉ p.groups)
include hr

theorem checkRequest_of_classified :
    config.checkRequest request (some p) =
      (config.judge p r request.verb).bind (request.tell (some p)) := by
  change (config.judgement request (some p)).bind (request.tell (some p)) = _
  simp only [judgement, AccessRequest.parsedFor, Option.bind_some, hr]

include ha

theorem returned?_advance_checkRequest (first : Directory) :
    ((config.checkRequest request (some p)).advance first).returned? = none := by
  rw [checkRequest_of_classified hr]
  simp only [judge, Dialogue.bind, Dialogue.advance, Directory.collaborators,
    Directory.findNamespace]
  cases first.namespaces[r.namespaceName]? with
  | none => rfl
  | some n =>
    simp only [isAdmin_iff, ha, if_false]
    rfl

/-- Without the namespace the second step records the judgement; with it, it is the other lookup. -/
theorem advance_advance_checkRequest (first second : Directory) :
    let told := config.judgedFrom p r request.verb first second
    ((config.checkRequest request (some p)).advance first).advance second = .done told.result ∨
      ((config.checkRequest request (some p)).advance first).advance second =
        request.tell (some p) told := by
  rw [checkRequest_of_classified hr]
  simp only [judge, Dialogue.bind, Dialogue.advance, Directory.collaborators,
    Directory.findNamespace, judgedFrom]
  cases first.namespaces[r.namespaceName]? with
  | none => exact .inl rfl
  | some n =>
    simp only [isAdmin_iff, ha, if_false]
    exact .inr rfl

/-- Two lookups and the record are all the steps there are. -/
theorem exists_returned_of_count {d : Directory} {turns : List Turn} (h : 3 ≤ turns.count .call) :
    ∃ result, ((Moment.mk d (config.checkRequest request (some p))).run turns).call.returned? =
      some result := by
  obtain ⟨before, afterFirst, rfl, h1⟩ := Turn.exists_call_of_lt_count h
  obtain ⟨between, afterSecond, rfl, h2⟩ := Turn.exists_call_of_lt_count h1
  obtain ⟨later, afterThird, rfl, -⟩ := Turn.exists_call_of_lt_count h2
  simp only [Moment.run_changes_call]
  rcases advance_advance_checkRequest hr ha (before.foldl Directory.apply d)
    (between.foldl Directory.apply (before.foldl Directory.apply d)) with hdone | htell
  · rw [hdone]
    exact ⟨_, Moment.returned?_run_done _ _ _⟩
  · rw [htell]
    exact ⟨_, Moment.returned?_run_done _ _ _⟩

/-- A call that returned made two steps, and tells what it judged from the moments of the two. -/
theorem eq_result_judgedFrom_of_returned {d : Directory} {turns : List Turn} {result : AccessResult}
    (h : ((Moment.mk d (config.checkRequest request (some p))).run turns).call.returned? =
      some result) :
    ∃ (before between : List Directory.Change) (after : List Turn),
      turns = before.map .change ++ .call :: (between.map .change ++ .call :: after) ∧
        result = (config.judgedFrom p r request.verb (before.foldl Directory.apply d)
          (between.foldl Directory.apply (before.foldl Directory.apply d))).result := by
  have hcall : (config.checkRequest request (some p)).returned? = none := by
    rw [checkRequest_of_classified hr]
    rfl
  obtain ⟨before, afterFirst, rfl, h1⟩ := Moment.exists_call_of_returned hcall h
  obtain ⟨between, afterSecond, rfl, h2⟩ :=
    Moment.exists_call_of_returned (returned?_advance_checkRequest hr ha _) h1
  refine ⟨before, between, afterSecond, rfl, ?_⟩
  rcases advance_advance_checkRequest hr ha (before.foldl Directory.apply d)
    (between.foldl Directory.apply (before.foldl Directory.apply d)) with hdone | htell
  · rw [hdone, Moment.returned?_run_done] at h2
    exact (Option.some.inj h2).symm
  · rw [htell] at h2
    obtain ⟨later, afterThird, rfl, h3⟩ := Moment.exists_call_of_returned rfl h2
    rw [AccessRequest.tell, Dialogue.advance, Moment.returned?_run_done] at h3
    exact (Option.some.inj h3).symm

end steps

/-- A call made while others change the directory sees it at two moments: it is let in when the
namespace is there at the first and a binding at the second. So it is let in where both are there
all the while, and not where one of them is at no time. -/
theorem check_regular (hr : RequestPath.classify request.path = some r)
    (ha : config.adminGroup ∉ p.groups) (d : Directory) (turns : List Turn) :
    let call := ((Moment.mk d (config.checkRequest request (some p))).run turns).call
    (3 ≤ turns.count .call → ∃ result, call.returned? = some result) ∧
    ∀ result, call.returned? = some result →
      ∃ (before between : List Directory.Change) (after : List Turn),
        turns = before.map .change ++ .call :: (between.map .change ++ .call :: after) ∧
        let first := before.foldl Directory.apply d
        let second := between.foldl Directory.apply first
        let named (seen : Directory) := ∃ n, seen.namespaces[r.namespaceName]? = some n
        let granted (seen : Directory) := ∃ b, seen.Stores b ∧
          b.Grants r.namespaceName p.groups r.grantToken (config.requiredVerb request.verb)
        (result = .ok .allowed ↔ named first ∧ granted second) ∧
        (first.Throughout (fun seen => ¬ granted seen) between → result ≠ .ok .allowed) ∧
        (first.Throughout (fun seen => ¬ named seen) between → result ≠ .ok .allowed) ∧
        (first.Throughout (fun seen => named seen ∧ granted seen) between →
          result = .ok .allowed) := by
  refine ⟨exists_returned_of_count hr ha, fun result hresult => ?_⟩
  obtain ⟨before, between, after, rfl, rfl⟩ := eq_result_judgedFrom_of_returned hr ha hresult
  refine ⟨before, between, after, rfl, result_judgedFrom_eq_allowed_iff, ?_, ?_, ?_⟩
  · intro hnever hallowed
    exact hnever between List.prefix_rfl (result_judgedFrom_eq_allowed_iff.mp hallowed).2
  · intro hnever hallowed
    exact hnever [] List.nil_prefix (result_judgedFrom_eq_allowed_iff.mp hallowed).1
  · intro halways
    exact result_judgedFrom_eq_allowed_iff.mpr
      ⟨(halways [] List.nil_prefix).1, (halways between List.prefix_rfl).2⟩

section sample

open Directory (sampleConfig sampleCaller sampleBinding)

/-- The namespace goes and the binding comes between the two lookups: the caller is let in, though
the two are never there together. -/
theorem check_regular_neverTogether :
    let request : AccessRequest := ⟨"/namespaces/team/topics", some .get⟩
    let r : ResourceRequest := ⟨"team", "topics", none, none⟩
    let d := Directory.empty.apply (.insertNamespace ⟨"team", "c"⟩)
    let turns : List Turn := [.call, .change (.removeNamespace "team"),
      .change (.insertBinding (sampleBinding "team" "topics" {.get})), .call, .call]
    (RequestPath.classify request.path = some r ∧
      sampleConfig.adminGroup ∉ sampleCaller.groups) ∧
    ((Moment.mk d (sampleConfig.checkRequest request (some sampleCaller))).run
      turns).call.returned? = some (.ok .allowed) ∧
    ∃ (before between : List Directory.Change) (after : List Turn),
      turns = before.map .change ++ .call :: (between.map .change ++ .call :: after) ∧
      (∃ n, (before.foldl Directory.apply d).namespaces[r.namespaceName]? = some n) ∧
      ∃ b, (between.foldl Directory.apply (before.foldl Directory.apply d)).Stores b ∧
        b.Grants r.namespaceName sampleCaller.groups r.grantToken (some .get) := by
  intro request r d turns
  have hr : RequestPath.classify request.path = some r := by decide +kernel
  have ha : sampleConfig.adminGroup ∉ sampleCaller.groups := by decide +kernel
  have hreturned : ((Moment.mk d (sampleConfig.checkRequest request (some sampleCaller))).run
      turns).call.returned? = some (.ok .allowed) := by decide +kernel
  obtain ⟨before, between, after, hturns, hiff, -⟩ := (check_regular hr ha d turns).2 _ hreturned
  exact ⟨⟨hr, ha⟩, hreturned, before, between, after, hturns, hiff.mp rfl⟩

end sample

end EngineConfig

end NamespaceAccess
