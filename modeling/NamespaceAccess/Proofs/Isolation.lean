import NamespaceAccess.Proofs.Directory

/-!
Tenants do not influence each other: what is stored for other namespaces, or for other groups in the
same one, makes no difference to a caller.
-/
namespace NamespaceAccess

/-- Only groups are ever meant, so a subject of another kind names nobody. -/
def Subject.IsOneOf (s : Subject) (groups : GroupSet) : Prop := s.kind = .group ∧ s.name ∈ groups

instance (s : Subject) (groups : GroupSet) : Decidable (s.IsOneOf groups) :=
  inferInstanceAs (Decidable (_ ∧ _))

namespace Directory

/-- The change neither makes nor unmakes the namespace, and what it stores or drops there speaks for
none of the groups. -/
def Foreign (d : Directory) (namespaceName : String) (groups : GroupSet) : Change → Prop
  | .insertNamespace n => n.name ≠ namespaceName
  | .removeNamespace name => name ≠ namespaceName
  | .insertBinding b => b.namespaceName ≠ namespaceName ∨
      ¬ b.subject.IsOneOf groups ∧ ∀ old ∈ d.bindings[b.key]?, ¬ old.subject.IsOneOf groups
  | .removeBinding key => key.namespaceName ≠ namespaceName ∨
      ∀ old ∈ d.bindings[key]?, ¬ old.subject.IsOneOf groups

instance (d : Directory) (namespaceName : String) (groups : GroupSet) :
    DecidablePred (d.Foreign namespaceName groups)
  | .insertNamespace _ => inferInstanceAs (Decidable (_ ≠ _))
  | .removeNamespace _ => inferInstanceAs (Decidable (_ ≠ _))
  | .insertBinding _ => inferInstanceAs (Decidable (_ ∨ _))
  | .removeBinding _ => inferInstanceAs (Decidable (_ ∨ _))

/-- Each change is judged in the state that the earlier ones have led to. -/
def AllForeign (d : Directory) (namespaceName : String) (groups : GroupSet) : List Change → Prop
  | [] => True
  | change :: changes => d.Foreign namespaceName groups change ∧
      (d.apply change).AllForeign namespaceName groups changes

instance decidableAllForeign (d : Directory) (namespaceName : String) (groups : GroupSet) :
    (changes : List Change) → Decidable (d.AllForeign namespaceName groups changes)
  | [] => inferInstanceAs (Decidable True)
  | change :: changes =>
    haveI := decidableAllForeign (d.apply change) namespaceName groups changes
    inferInstanceAs (Decidable (_ ∧ _))

/-- All that a caller with these groups can notice of the namespace. -/
structure SameFor (d e : Directory) (namespaceName : String) (groups : GroupSet) : Prop where
  namespace_eq : d.namespaces[namespaceName]? = e.namespaces[namespaceName]?
  stores_iff : ∀ b : RoleBinding, b.Applies namespaceName groups → (d.Stores b ↔ e.Stores b)

variable {d : Directory} {namespaceName : String} {groups : GroupSet}

theorem SameFor.refl (d : Directory) : d.SameFor d namespaceName groups :=
  ⟨rfl, fun _ _ => Iff.rfl⟩

theorem SameFor.trans {e f : Directory} (h : d.SameFor e namespaceName groups)
    (h' : e.SameFor f namespaceName groups) : d.SameFor f namespaceName groups :=
  ⟨h.namespace_eq.trans h'.namespace_eq,
    fun b hb => (h.stores_iff b hb).trans (h'.stores_iff b hb)⟩

theorem Foreign.namespaces_eq {change : Change} (h : d.Foreign namespaceName groups change) :
    (d.apply change).namespaces[namespaceName]? = d.namespaces[namespaceName]? := by
  rw [namespaces_apply]
  cases change with
  | insertNamespace n => exact if_neg h
  | removeNamespace name => exact if_neg h
  | insertBinding b => rfl
  | removeBinding key => rfl

/-- A key of the namespace under which a binding applies is out of reach of foreign changes: they
may neither take its place nor remove it. -/
theorem Foreign.bindings_iff {change : Change} (h : d.Foreign namespaceName groups change)
    {b : RoleBinding} (hb : b.Applies namespaceName groups) :
    (d.apply change).bindings[b.key]? = some b ↔ d.bindings[b.key]? = some b := by
  rw [bindings_apply]
  cases change with
  | insertNamespace n => rfl
  | removeNamespace name => rfl
  | insertBinding inserted =>
    simp only
    split
    next hinserted =>
      have hkey := hinserted.2
      have hnamespace : inserted.namespaceName = namespaceName :=
        (congrArg BindingKey.namespaceName hkey).trans hb.1
      rcases h with h | ⟨hnew, hold⟩
      · exact absurd hnamespace h
      · rw [hkey] at hold
        constructor
        · rintro ⟨⟩
          exact absurd hb.2 hnew
        · exact fun hstored => absurd hb.2 (hold b hstored)
    next => rfl
  | removeBinding removed =>
    simp only
    split
    next hkey =>
      subst hkey
      rcases h with h | hold
      · exact absurd hb.1 h
      · simpa using fun hstored => hold b hstored hb.2
    next => rfl

theorem Reachable.sameFor_apply (hd : d.Reachable) {change : Change}
    (h : d.Foreign namespaceName groups change) :
    d.SameFor (d.apply change) namespaceName groups where
  namespace_eq := h.namespaces_eq.symm
  stores_iff b hb := by
    rw [hd.stores_iff, (Reachable.apply change hd).stores_iff, h.bindings_iff hb]

theorem Reachable.sameFor_foldl (hd : d.Reachable) {changes : List Change}
    (h : d.AllForeign namespaceName groups changes) :
    d.SameFor (changes.foldl Directory.apply d) namespaceName groups := by
  induction changes generalizing d with
  | nil => exact SameFor.refl d
  | cons change changes ih =>
    exact (hd.sameFor_apply h.1).trans (ih (.apply change hd) h.2)

/-- The lookups answer from the directory, and of what is stored for the groups they hold back
nothing; what else they answer is left open, and so is the order. -/
structure AnswersFor (c : Collaborators Directory) (d : Directory) (groups : GroupSet) : Prop where
  findNamespace : ∀ name, c.findNamespace name d = (.ok (d.findNamespace name), d)
  findBindings : ∃ bindings, (c.findBindings groups d).1 = .ok bindings ∧
    ∀ b : RoleBinding, b.subject.IsOneOf groups → (b ∈ bindings ↔ d.Stores b)

theorem collaborators_answersFor (d : Directory) (groups : GroupSet) :
    AnswersFor collaborators d groups where
  findNamespace _ := rfl
  findBindings := by
    refine ⟨d.findBindings groups, rfl, fun b hb => ?_⟩
    rw [mem_findBindings_iff]
    exact and_iff_left hb

/-- The binding lookup does not filter at all and answers in whatever order. -/
structure AnswersWithAll (c : Collaborators Directory) : Prop where
  findNamespace : ∀ name d, c.findNamespace name d = (.ok (d.findNamespace name), d)
  findBindings : ∀ groups d, ∃ all : List RoleBinding,
    c.findBindings groups d = (.ok all, d) ∧ all.Perm d.bindings.values

theorem AnswersWithAll.answersFor {c : Collaborators Directory} (h : AnswersWithAll c)
    (d : Directory) (groups : GroupSet) : AnswersFor c d groups where
  findNamespace name := h.findNamespace name d
  findBindings := by
    obtain ⟨all, hall, hperm⟩ := h.findBindings groups d
    refine ⟨all, congrArg Prod.fst hall, fun b _ => ?_⟩
    rw [hperm.mem_iff, mem_values_iff]

theorem SameFor.answer_eq {e : Directory} {c c' : Collaborators Directory}
    {config : EngineConfig} {request : AccessRequest} {p : Principal} {r : ResourceRequest}
    (h : d.SameFor e r.namespaceName p.groups) (hr : RequestPath.classify request.path = some r)
    (hc : AnswersFor c d p.groups) (hc' : AnswersFor c' e p.groups) :
    config.answer c d request (some p) = config.answer c' e request (some p) := by
  have hn := hc.findNamespace r.namespaceName
  have hn' := hc'.findNamespace r.namespaceName
  obtain ⟨bindings, hb, hall⟩ := hc.findBindings
  obtain ⟨bindings', hb', hall'⟩ := hc'.findBindings
  apply EngineConfig.answer_congr hr
  · rw [hn, hn']
    exact congrArg Except.ok h.namespace_eq
  · rw [hn]
    exact hb
  · rw [hn']
    exact hb'
  · intro b happlies
    rw [hall b happlies.2, hall' b happlies.2]
    exact h.stores_iff b happlies

/-- Whatever other tenants do, a caller is told the same before and after, also when the engine gets
to see all bindings there are. -/
theorem answer_foldl_apply_of_allForeign (hd : d.Reachable) {changes : List Change}
    {p : Principal} (hforeign : d.AllForeign namespaceName p.groups changes)
    (config : EngineConfig) {request : AccessRequest} {r : ResourceRequest}
    (hr : RequestPath.classify request.path = some r) (hname : r.namespaceName = namespaceName) :
    config.answer collaborators (changes.foldl apply d) request (some p) =
        config.answer collaborators d request (some p) ∧
      ∀ c c', AnswersWithAll c → AnswersWithAll c' →
        config.answer c' (changes.foldl apply d) request (some p) =
          config.answer c d request (some p) := by
  subst hname
  have hsame := hd.sameFor_foldl hforeign
  constructor
  · exact (hsame.answer_eq hr (collaborators_answersFor _ _) (collaborators_answersFor _ _)).symm
  · intro c c' hc hc'
    exact (hsame.answer_eq hr (hc.answersFor _ _) (hc'.answersFor _ _)).symm

section sample

def backwards : Collaborators Directory where
  findNamespace := collaborators.findNamespace
  findBindings _ d := (.ok d.bindings.values.reverse, d)

theorem backwards_answersWithAll : AnswersWithAll backwards where
  findNamespace _ _ := rfl
  findBindings _ d := ⟨d.bindings.values.reverse, rfl, List.reverse_perm _⟩

/-- Another tenant comes and goes, and a key of this one is taken by another group, then by a subject
that is no group but has the name of one, and then freed. -/
def sampleForeignChanges : List Change :=
  [.insertNamespace ⟨"other", "c"⟩,
    .insertBinding (sampleBinding "other" "topics" {.delete}),
    .insertBinding ⟨"team", "ops", ⟨"ops", .group⟩, ⟨["topics"], {.delete}⟩⟩,
    .insertBinding ⟨"team", "ops", ⟨"dev", .unsupported⟩, ⟨["topics"], {.delete}⟩⟩,
    .removeBinding ⟨"team", "ops"⟩,
    .removeNamespace "other"]

def sampleDirectory : Directory :=
  (empty.apply (.insertNamespace ⟨"team", "c"⟩)).apply
    (.insertBinding (sampleBinding "team" "topics" {.get}))

theorem answer_foldl_apply_of_allForeign_sample :
    let request : AccessRequest := ⟨"/namespaces/team/topics/t1", some .delete⟩
    sampleDirectory.Reachable ∧
    sampleDirectory.AllForeign "team" sampleCaller.groups sampleForeignChanges ∧
    RequestPath.classify request.path = some ⟨"team", "topics", some "t1", none⟩ ∧
    sampleConfig.answer collaborators (sampleForeignChanges.foldl apply sampleDirectory) request
        (some sampleCaller) =
      sampleConfig.answer collaborators sampleDirectory request (some sampleCaller) ∧
    sampleConfig.answer backwards (sampleForeignChanges.foldl apply sampleDirectory) request
        (some sampleCaller) =
      sampleConfig.answer backwards sampleDirectory request (some sampleCaller) := by
  intro request
  have hd : sampleDirectory.Reachable := .apply _ (.apply _ .empty)
  have hforeign : sampleDirectory.AllForeign "team" sampleCaller.groups sampleForeignChanges := by
    decide +kernel
  have hr : RequestPath.classify request.path = some ⟨"team", "topics", some "t1", none⟩ := by
    decide +kernel
  obtain ⟨hfiltered, hall⟩ := answer_foldl_apply_of_allForeign hd hforeign sampleConfig hr rfl
  exact ⟨hd, hforeign, hr, hfiltered,
    hall _ _ backwards_answersWithAll backwards_answersWithAll⟩

end sample

end Directory

end NamespaceAccess
