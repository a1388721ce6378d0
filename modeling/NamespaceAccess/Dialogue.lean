import NamespaceAccess.Audit.Event
import NamespaceAccess.Decision

/-!
What an engine asks of its collaborators and of the audit trail, step by step, and how it is carried
out with collaborators that may fail and may answer differently each time.
-/
namespace NamespaceAccess

structure Namespace where
  name : String
  /-- The backing cluster that owns the namespace. -/
  cluster : String
  deriving DecidableEq, Repr

abbrev NamespaceAnswer := Except LookupError (Option Namespace)

abbrev BindingsAnswer := Except LookupError (List RoleBinding)

/-- A computation that may look up a namespace by name, look up the bindings of some groups, or
record an event, any number of times, before it returns. -/
inductive Dialogue (α : Type) where
  | done (result : α)
  | findNamespace (name : String) (next : NamespaceAnswer → Dialogue α)
  | findBindings (groups : GroupSet) (next : BindingsAnswer → Dialogue α)
  | record (event : AuditEvent) (next : Dialogue α)

namespace Dialogue

variable {α β : Type}

def bind : Dialogue α → (α → Dialogue β) → Dialogue β
  | done a, f => f a
  | findNamespace name next, f => findNamespace name fun answer => (next answer).bind f
  | findBindings groups next, f => findBindings groups fun answer => (next answer).bind f
  | record event next, f => record event (next.bind f)

instance : Monad Dialogue where
  pure := done
  bind := bind

theorem bind_done (d : Dialogue α) : d.bind done = d := by
  induction d with
  | done a => rfl
  | findNamespace name next ih => simp only [bind, ih]
  | findBindings groups next ih => simp only [bind, ih]
  | record event next ih => simp only [bind, ih]

theorem bind_assoc {γ : Type} (d : Dialogue α) (f : α → Dialogue β) (g : β → Dialogue γ) :
    (d.bind f).bind g = d.bind fun a => (f a).bind g := by
  induction d with
  | done a => rfl
  | findNamespace name next ih => simp only [bind, ih]
  | findBindings groups next ih => simp only [bind, ih]
  | record event next ih => simp only [bind, ih]

instance : LawfulMonad Dialogue :=
  LawfulMonad.mk' Dialogue bind_done (fun _ _ => rfl) bind_assoc

end Dialogue

/-- The two lookups, each of which may change what later ones answer. -/
structure Collaborators (σ : Type) where
  findNamespace : String → σ → NamespaceAnswer × σ
  findBindings : GroupSet → σ → BindingsAnswer × σ

inductive Lookup where
  | namespaceNamed (name : String) (answer : NamespaceAnswer)
  | bindingsOf (groups : GroupSet) (answer : BindingsAnswer)

namespace Lookup

def isNamespaceLookup : Lookup → Bool
  | namespaceNamed .. => true
  | bindingsOf .. => false

end Lookup

/-- What a dialogue did, and the state in which it left the collaborators. -/
structure Transcript (σ α : Type) where
  result : α
  lookups : List Lookup
  events : List AuditEvent
  state : σ

namespace Transcript

variable {σ α : Type}

def pure (result : α) (state : σ) : Transcript σ α := ⟨result, [], [], state⟩

def withLookup (lookup : Lookup) (t : Transcript σ α) : Transcript σ α :=
  { t with lookups := lookup :: t.lookups }

def withEvent (event : AuditEvent) (t : Transcript σ α) : Transcript σ α :=
  { t with events := event :: t.events }

def followedBy {β : Type} (t : Transcript σ α) (u : Transcript σ β) : Transcript σ β where
  result := u.result
  lookups := t.lookups ++ u.lookups
  events := t.events ++ u.events
  state := u.state

end Transcript

def Dialogue.run {σ α : Type} (c : Collaborators σ) : Dialogue α → σ → Transcript σ α
  | done result, state => Transcript.pure result state
  | findNamespace name next, state =>
    let (answer, state) := c.findNamespace name state
    ((next answer).run c state).withLookup (.namespaceNamed name answer)
  | findBindings groups next, state =>
    let (answer, state) := c.findBindings groups state
    ((next answer).run c state).withLookup (.bindingsOf groups answer)
  | record event next, state => (next.run c state).withEvent event

/-- The second dialogue starts from the result of the first and from the state it left. -/
theorem Dialogue.run_bind {σ α β : Type} (c : Collaborators σ) (d : Dialogue α)
    (f : α → Dialogue β) (state : σ) :
    (d.bind f).run c state =
      (d.run c state).followedBy ((f (d.run c state).result).run c (d.run c state).state) := by
  induction d generalizing state with
  | done a => rfl
  | findNamespace name next ih =>
    simp only [bind, run, ih]
    rfl
  | findBindings groups next ih =>
    simp only [bind, run, ih]
    rfl
  | record event next ih =>
    simp only [bind, run, ih]
    rfl

end NamespaceAccess
