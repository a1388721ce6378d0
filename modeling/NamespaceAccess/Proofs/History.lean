import NamespaceAccess.Proofs.Directory

/-!
Runs over one directory that clients change and that any number of engines consult. What a run has
recorded decides later requests: for each key the last change that was carried out counts.
-/
namespace NamespaceAccess
namespace Directory

inductive Action where
  | change (change : Change)
  | check (config : EngineConfig) (request : AccessRequest) (principal : Option Principal)
  | list (config : EngineConfig) (principal : Option Principal)

inductive Reply where
  | done
  | refused (error : BindingError)
  | namespaceRemoved (removed : Option Namespace)
  | bindingRemoved (removed : Option RoleBinding)
  | access (result : AccessResult)
  | catalog (visible : Except LookupError (List ResourceDefinition))

def reply (d : Directory) : Action → Reply
  | .change (.insertNamespace _) => .done
  | .change (.removeNamespace name) => .namespaceRemoved (d.removeNamespace name).1
  | .change (.insertBinding b) =>
    match d.insertBinding b with
    | .error e => .refused e
    | .ok _ => .done
  | .change (.removeBinding key) => .bindingRemoved (d.removeBinding key).1
  | .check config request principal =>
    .access (config.answer collaborators d request principal)
  | .list config principal => .catalog ((config.listCatalog principal).run collaborators d).result

def after (d : Directory) : Action → Directory
  | .change change => d.apply change
  | .check config request principal =>
    ((config.checkRequest request principal).run collaborators d).state
  | .list config principal => ((config.listCatalog principal).run collaborators d).state

abbrev Event := Action × Reply

def history (d : Directory) : List Action → List Event
  | [] => []
  | action :: actions => (action, d.reply action) :: (d.after action).history actions

namespace Event

def WritesNamespace (name : String) : Event → Prop
  | (.change (.insertNamespace n), _) => n.name = name
  | (.change (.removeNamespace removed), _) => removed = name
  | _ => False

/-- Removals of the key count, and insertions under it that were not refused. -/
def WritesBinding (key : BindingKey) : Event → Prop
  | (.change (.insertBinding b), .done) => b.key = key
  | (.change (.removeBinding removed), _) => removed = key
  | _ => False

def carriedOut : Event → Bool
  | (.change (.insertBinding _), .refused _) => false
  | (.change _, _) => true
  | _ => false

end Event

/-- The last of the events that count. -/
def MostRecent (past : List Event) (counts : Event → Prop) (e : Event) : Prop :=
  ∃ older newer, past = older ++ e :: newer ∧ counts e ∧ ∀ later ∈ newer, ¬ counts later

theorem not_mostRecent_nil {counts : Event → Prop} {e : Event} : ¬ MostRecent [] counts e := by
  rintro ⟨older, newer, h, -⟩
  simp at h

theorem mostRecent_concat {past : List Event} {counts : Event → Prop} {x e : Event} :
    MostRecent (past ++ [x]) counts e ↔
      (counts x ∧ x = e) ∨ (¬ counts x ∧ MostRecent past counts e) := by
  constructor
  · rintro ⟨older, newer, h, he, hnewer⟩
    rcases List.eq_nil_or_concat newer with rfl | ⟨newer, last, rfl⟩
    · obtain ⟨-, rfl⟩ : past = older ∧ x = e := by simpa using h
      exact .inl ⟨he, rfl⟩
    · have h' : past ++ [x] = (older ++ e :: newer) ++ [last] := by simpa using h
      obtain ⟨rfl, hx⟩ := List.append_inj' h' rfl
      obtain rfl : x = last := by simpa using hx
      exact .inr ⟨hnewer x (by simp), older, newer, rfl, he,
        fun later hlater => hnewer later (by simp [hlater])⟩
  · rintro (⟨hx, rfl⟩ | ⟨hx, older, newer, rfl, he, hnewer⟩)
    · exact ⟨past, [], rfl, hx, by simp⟩
    · refine ⟨older, newer ++ [x], by simp, he, fun later hlater => ?_⟩
      rcases List.mem_append.mp hlater with hlater | hlater
      · exact hnewer later hlater
      · rw [List.mem_singleton.mp hlater]
        exact hx

/-- A directory holds, under each name and each key, what was put there last and not removed. -/
structure Reflects (d : Directory) (past : List Event) : Prop where
  namespaces : ∀ (name : String) (n : Namespace), d.namespaces[name]? = some n ↔
    MostRecent past (Event.WritesNamespace name) (.change (.insertNamespace n), .done)
  bindings : ∀ (key : BindingKey) (b : RoleBinding), d.bindings[key]? = some b ↔
    MostRecent past (Event.WritesBinding key) (.change (.insertBinding b), .done)

theorem reflects_empty : Reflects empty [] where
  namespaces name n := by simp [empty, not_mostRecent_nil]
  bindings key b := by simp [empty, not_mostRecent_nil]

theorem after_check (d : Directory) (config : EngineConfig) (request : AccessRequest)
    (principal : Option Principal) : d.after (.check config request principal) = d :=
  state_run _

theorem after_list (d : Directory) (config : EngineConfig) (principal : Option Principal) :
    d.after (.list config principal) = d :=
  state_run _

theorem reply_insertBinding (d : Directory) (b : RoleBinding) :
    d.reply (.change (.insertBinding b)) =
      match b.error? with
      | some e => .refused e
      | none => .done := by
  simp only [reply, insertBinding]
  cases b.error? <;> rfl

/-- A namespace is stored after an event that put it there, and after those that do not count for
its name if it was stored before. -/
theorem namespaces_after (d : Directory) (action : Action) (name : String) (n : Namespace) :
    (d.after action).namespaces[name]? = some n ↔
      (Event.WritesNamespace name (action, d.reply action) ∧
        (action, d.reply action) = (.change (.insertNamespace n), .done)) ∨
      (¬ Event.WritesNamespace name (action, d.reply action) ∧ d.namespaces[name]? = some n) := by
  cases action with
  | change change =>
    rw [show d.after (.change change) = d.apply change from rfl, namespaces_apply]
    cases change with
    | insertNamespace inserted =>
      by_cases hname : inserted.name = name <;> simp [Event.WritesNamespace, reply, hname]
    | removeNamespace removed =>
      by_cases hname : removed = name <;> simp [Event.WritesNamespace, hname]
    | insertBinding b => simp [Event.WritesNamespace]
    | removeBinding key => simp [Event.WritesNamespace]
  | check config request principal => simp [after_check, Event.WritesNamespace]
  | list config principal => simp [after_list, Event.WritesNamespace]

/-- Bindings differ from namespaces in that their insertion can be refused. -/
theorem bindings_after (d : Directory) (action : Action) (key : BindingKey) (b : RoleBinding) :
    (d.after action).bindings[key]? = some b ↔
      (Event.WritesBinding key (action, d.reply action) ∧
        (action, d.reply action) = (.change (.insertBinding b), .done)) ∨
      (¬ Event.WritesBinding key (action, d.reply action) ∧ d.bindings[key]? = some b) := by
  cases action with
  | change change =>
    rw [show d.after (.change change) = d.apply change from rfl, bindings_apply]
    cases change with
    | insertNamespace n => simp [Event.WritesBinding]
    | removeNamespace name => simp [Event.WritesBinding]
    | insertBinding inserted =>
      rw [reply_insertBinding]
      cases herror : inserted.error? with
      | some e => simp [Event.WritesBinding, herror]
      | none =>
        by_cases hkey : inserted.key = key <;> simp [Event.WritesBinding, herror, hkey]
    | removeBinding removed =>
      by_cases hkey : removed = key <;> simp [Event.WritesBinding, hkey]
  | check config request principal => simp [after_check, Event.WritesBinding]
  | list config principal => simp [after_list, Event.WritesBinding]

variable {d : Directory} {past : List Event}

theorem Reflects.after (h : d.Reflects past) (action : Action) :
    (d.after action).Reflects (past ++ [(action, d.reply action)]) where
  namespaces name n := by
    rw [mostRecent_concat, ← h.namespaces]
    exact namespaces_after d action name n
  bindings key b := by
    rw [mostRecent_concat, ← h.bindings]
    exact bindings_after d action key b

/-- The state that a run has reached reflects all that it has recorded so far. -/
theorem Reflects.run (h : d.Reflects past) (actions : List Action) :
    (actions.foldl Directory.after d).Reflects (past ++ d.history actions) := by
  induction actions generalizing d past with
  | nil => simpa [history] using h
  | cons action actions ih => simpa [history] using ih (h.after action)

theorem history_eq_append_cons {actions : List Action} {future : List Event} {e : Event}
    (h : d.history actions = past ++ e :: future) :
    ∃ earlier action, past = d.history earlier ∧
      e = (action, (earlier.foldl Directory.after d).reply action) := by
  induction past generalizing d actions with
  | nil =>
    cases actions with
    | nil => simp [history] at h
    | cons action actions =>
      simp only [history, List.nil_append, List.cons.injEq] at h
      exact ⟨[], action, rfl, h.1.symm⟩
  | cons first past ih =>
    cases actions with
    | nil => simp [history] at h
    | cons action actions =>
      simp only [history, List.cons_append, List.cons.injEq] at h
      obtain ⟨earlier, last, rfl, he⟩ := ih h.2
      exact ⟨action :: earlier, last, by rw [history, h.1], he⟩

theorem after_of_not_carriedOut {action : Action}
    (h : Event.carriedOut (action, d.reply action) = false) : d.after action = d := by
  cases action with
  | change change =>
    cases change with
    | insertBinding b =>
      rw [reply_insertBinding] at h
      cases herror : b.error? with
      | none => simp [herror, Event.carriedOut] at h
      | some e => simp [Directory.after, apply, insertBinding, herror, Except.toOption]
    | insertNamespace n => simp [Event.carriedOut] at h
    | removeNamespace name => simp [Event.carriedOut] at h
    | removeBinding key => simp [Event.carriedOut] at h
  | check config request principal => exact after_check d config request principal
  | list config principal => exact after_list d config principal

/-- Refused insertions and the calls of engines can be left out of a run. -/
theorem foldl_after_eq_carriedOut (d : Directory) (actions : List Action) :
    actions.foldl Directory.after d =
      ((d.history actions).filter Event.carriedOut).foldl (fun d e => d.after e.1) d := by
  induction actions generalizing d with
  | nil => rfl
  | cons action actions ih =>
    rw [List.foldl_cons, ih, history, List.filter_cons]
    split
    · rfl
    next h => rw [after_of_not_carriedOut (Bool.eq_false_iff.mpr h)]

theorem Reflects.key_eq (h : d.Reflects past) {key : BindingKey} {b : RoleBinding}
    (hb : d.bindings[key]? = some b) : b.key = key := by
  obtain ⟨_, _, -, hkey, -⟩ := (h.bindings key b).mp hb
  exact hkey

/-- A recorded request was answered from the state that the run had reached. -/
theorem answer_of_history {actions : List Action} {future : List Event} {config : EngineConfig}
    {request : AccessRequest} {principal : Option Principal} {result : AccessResult}
    (h : d.history actions =
      past ++ (.check config request principal, .access result) :: future) :
    ∃ earlier, past = d.history earlier ∧
      result =
        config.answer collaborators (earlier.foldl Directory.after d) request principal := by
  obtain ⟨earlier, action, hpast, he⟩ := history_eq_append_cons h
  obtain ⟨rfl, hresult⟩ := Prod.mk.inj he
  exact ⟨earlier, hpast, by simpa [reply] using hresult⟩

/-- Outside the admin group a request is allowed by what was put last under the name of its
namespace and under some key there, and by nothing else that happened before. -/
theorem check_allowed_iff_mostRecent {actions : List Action} {past future : List Event}
    {config : EngineConfig} {request : AccessRequest} {p : Principal} {r : ResourceRequest}
    {result : AccessResult}
    (hrun : empty.history actions =
      past ++ (.check config request (some p), .access result) :: future)
    (ha : config.adminGroup ∉ p.groups) (hr : RequestPath.classify request.path = some r) :
    (result = .ok .allowed ↔
      (∃ n, MostRecent past (Event.WritesNamespace r.namespaceName)
        (.change (.insertNamespace n), .done)) ∧
      ∃ k b, MostRecent past (Event.WritesBinding ⟨r.namespaceName, k⟩)
          (.change (.insertBinding b), .done) ∧
        b.subject.kind = .group ∧ b.subject.name ∈ p.groups ∧
        r.grantToken ∈ b.role.resourceTypes ∧
        ∀ v ∈ config.requiredVerb request.verb, v ∈ b.role.verbs) ∧
    ∀ actions' past' future' result',
      empty.history actions' =
          past' ++ (.check config request (some p), .access result') :: future' →
        past'.filter Event.carriedOut = past.filter Event.carriedOut → result' = result := by
  obtain ⟨earlier, rfl, rfl⟩ := answer_of_history hrun
  have hreflects := reflects_empty.run earlier
  rw [List.nil_append] at hreflects
  constructor
  · rw [EngineConfig.answer_collaborators_eq_allowed_iff hr ha]
    simp only [hreflects.namespaces]
    refine and_congr_right fun _ => ⟨?_, ?_⟩
    · rintro ⟨b, ⟨key, hb⟩, ⟨hnamespace, hkind, hgroup⟩, htoken, hverb⟩
      have hkey : key = ⟨r.namespaceName, b.name⟩ := by
        rw [← hreflects.key_eq hb, ← hnamespace]
        rfl
      subst hkey
      exact ⟨b.name, b, (hreflects.bindings _ _).mp hb, hkind, hgroup, htoken, hverb⟩
    · rintro ⟨k, b, hrecent, hkind, hgroup, htoken, hverb⟩
      have hb := (hreflects.bindings _ _).mpr hrecent
      have hnamespace : b.namespaceName = r.namespaceName :=
        congrArg BindingKey.namespaceName (hreflects.key_eq hb)
      exact ⟨b, ⟨_, hb⟩, ⟨hnamespace, hkind, hgroup⟩, htoken, hverb⟩
  · intro actions' past' future' result' hrun' hfilter
    obtain ⟨earlier', rfl, rfl⟩ := answer_of_history hrun'
    rw [foldl_after_eq_carriedOut, hfilter, ← foldl_after_eq_carriedOut]

section sample

def sampleRequest : AccessRequest := ⟨"/api/namespaces/team/connectors/c1/restart/", some .put⟩

def samplePast : List Event :=
  [(.change (.insertNamespace ⟨"team", "c"⟩), .done),
    (.change (.insertBinding (sampleBinding "team" "topics" {.get})), .done),
    (.check sampleConfig sampleRequest (some sampleCaller), .access (.ok .unknown)),
    (.change (.insertBinding (sampleBinding "team" "connectors/restart" ∅)), .refused (.noVerbs "devs")),
    (.change (.insertBinding (sampleBinding "team" "connectors/restart" {.put})), .done)]

theorem check_allowed_iff_mostRecent_replacement :
    empty.history (samplePast.map Prod.fst ++
        [.check sampleConfig sampleRequest (some sampleCaller)]) =
      samplePast ++ [(.check sampleConfig sampleRequest (some sampleCaller),
        .access (.ok .allowed))] ∧
    sampleConfig.adminGroup ∉ sampleCaller.groups ∧
    RequestPath.classify sampleRequest.path =
      some ⟨"team", "connectors", some "c1", some "restart"⟩ ∧
    (∃ n, MostRecent samplePast (Event.WritesNamespace "team")
      (.change (.insertNamespace n), .done)) ∧
    ∃ k b, MostRecent samplePast (Event.WritesBinding ⟨"team", k⟩)
        (.change (.insertBinding b), .done) ∧
      b.subject.kind = .group ∧ b.subject.name ∈ sampleCaller.groups ∧
      "connectors/restart" ∈ b.role.resourceTypes ∧ .put ∈ b.role.verbs := by
  have hrun : empty.history (samplePast.map Prod.fst ++
        [.check sampleConfig sampleRequest (some sampleCaller)]) =
      samplePast ++ [(.check sampleConfig sampleRequest (some sampleCaller),
        .access (.ok .allowed))] := rfl
  have ha : sampleConfig.adminGroup ∉ sampleCaller.groups := by decide +kernel
  have hr : RequestPath.classify sampleRequest.path =
      some ⟨"team", "connectors", some "c1", some "restart"⟩ := by decide +kernel
  obtain ⟨hnamespace, k, b, hrecent, hkind, hgroup, htoken, hverb⟩ :=
    (check_allowed_iff_mostRecent hrun ha hr).1.mp rfl
  exact ⟨hrun, ha, hr, hnamespace, k, b, hrecent, hkind, hgroup, htoken, hverb .put rfl⟩

end sample

end Directory

end NamespaceAccess
