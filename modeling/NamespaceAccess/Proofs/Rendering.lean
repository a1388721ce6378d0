import NamespaceAccess.Proofs.Classification

/-!
Requests rendered as paths and read back. A name of the request that equals the anchor is taken for
one when two or more names follow it, and then another request is read.
-/
namespace NamespaceAccess.RequestPath

variable {before tail : List String} {s : String} {r : ResourceRequest} {slash : Bool}

theorem not_hasLaterAnchor_nil : ¬ HasLaterAnchor [] := by
  rintro ⟨between, after, h, -⟩
  simp at h

theorem hasLaterAnchor_cons :
    HasLaterAnchor (s :: tail) ↔ (s = anchor ∧ 2 ≤ tail.length) ∨ HasLaterAnchor tail := by
  constructor
  · rintro ⟨between, after, h, hafter⟩
    rcases List.cons_eq_append_iff.mp h with ⟨rfl, h⟩ | ⟨between, rfl, rfl⟩
    · obtain ⟨rfl, rfl⟩ := List.cons.inj h
      exact .inl ⟨rfl, hafter⟩
    · exact .inr ⟨between, after, rfl, hafter⟩
  · rintro (⟨rfl, htail⟩ | ⟨between, after, rfl, hafter⟩)
    · exact ⟨[], tail, rfl, htail⟩
    · exact ⟨s :: between, after, rfl, hafter⟩

/-- The last two names of a request are too close to its end to be taken for an anchor. -/
theorem hasLaterAnchor_segments_iff (h : r.subAction.isSome → r.resourceName.isSome) :
    HasLaterAnchor r.segments ↔ (r.namespaceName = anchor ∧ r.resourceName.isSome) ∨
      (r.resourceType = anchor ∧ r.subAction.isSome) := by
  obtain ⟨n, t, name, action⟩ := r
  cases name <;> cases action <;>
    simp_all [ResourceRequest.segments, hasLaterAnchor_cons, not_hasLaterAnchor_nil]

theorem isSegment_of_nameText (h : NameText s) : IsSegment s := ⟨h.nonempty, h.slash_not_mem⟩

/-- What stands before a name of the request may be counted to what stands before the request. -/
theorem isSegment_of_mem_append {names : List String} (hbefore : ∀ s ∈ before, IsSegment s)
    (hnames : ∀ s ∈ names, NameText s) : ∀ s ∈ before ++ names, IsSegment s := by
  intro s hs
  rcases List.mem_append.mp hs with hs | hs
  · exact hbefore s hs
  · exact isSegment_of_nameText (hnames s hs)

theorem nameText_anchor : NameText anchor := by decide

section misread

variable (hbefore : ∀ s ∈ before, IsSegment s) (hr : r.WellFormed)
include hbefore hr

theorem classify_render_of_resourceType {name action : String} (htype : r.resourceType = anchor)
    (hname : r.resourceName = some name) (haction : r.subAction = some action) :
    classify (render before r slash) = some ⟨name, action, none, none⟩ := by
  obtain ⟨n, t, _, _⟩ := r
  obtain rfl : t = anchor := htype
  obtain ⟨rfl, rfl⟩ := And.intro hname haction
  have hnames := hr.names
  simp only [ResourceRequest.segments, Option.toList_some, List.singleton_append,
    List.forall_mem_cons] at hnames
  have hrender : render before ⟨n, anchor, some name, some action⟩ slash =
      render (before ++ [anchor, n]) ⟨name, action, none, none⟩ slash := by
    simp [render, ResourceRequest.segments]
  rw [hrender]
  apply classify_render
  · apply isSegment_of_mem_append hbefore
    simp [nameText_anchor, hnames.1]
  · exact ⟨by simpa [ResourceRequest.segments] using hnames.2.2, by simp⟩
  · simp [hasLaterAnchor_segments_iff]

theorem classify_render_of_namespaceName {name : String} (hnamespace : r.namespaceName = anchor)
    (hname : r.resourceName = some name) (h : ¬ (r.resourceType = anchor ∧ r.subAction.isSome)) :
    classify (render before r slash) = some ⟨r.resourceType, name, r.subAction, none⟩ := by
  obtain ⟨n, t, _, action⟩ := r
  obtain rfl : n = anchor := hnamespace
  obtain rfl := hname
  have hnames := hr.names
  simp only [ResourceRequest.segments, Option.toList_some, List.singleton_append,
    List.forall_mem_cons] at hnames
  have hrender : render before ⟨anchor, t, some name, action⟩ slash =
      render (before ++ [anchor]) ⟨t, name, action, none⟩ slash := by
    simp [render, ResourceRequest.segments]
  rw [hrender]
  apply classify_render
  · apply isSegment_of_mem_append hbefore
    simp [nameText_anchor]
  · exact ⟨by simpa [ResourceRequest.segments] using hnames.2, by simp⟩
  · simpa [hasLaterAnchor_segments_iff] using h

theorem classify_render_eq_some_self_iff :
    classify (render before r slash) = some r ↔
      ¬ (r.namespaceName = anchor ∧ r.resourceName.isSome) ∧
        ¬ (r.resourceType = anchor ∧ r.subAction.isSome) := by
  rw [← not_or, ← hasLaterAnchor_segments_iff hr.resourceNamed]
  constructor
  · intro h
    obtain ⟨_, _, -, -, -, hlater⟩ := classify_sound h
    exact hlater
  · exact classify_render hbefore hr

end misread

/-- A request is read back from its rendering exactly if neither its namespace nor its resource type
is taken for an anchor. Otherwise what follows the last such name is read, and in no case does it
matter what the request stands below. -/
theorem classify_render_exact (hbefore : ∀ s ∈ before, IsSegment s) (hr : r.WellFormed)
    (slash : Bool) :
    (classify (render before r slash) = some r ↔
      ¬ (r.namespaceName = anchor ∧ r.resourceName.isSome) ∧
        ¬ (r.resourceType = anchor ∧ r.subAction.isSome)) ∧
    (∀ name action, r.resourceType = anchor → r.resourceName = some name →
      r.subAction = some action →
      classify (render before r slash) = some ⟨name, action, none, none⟩) ∧
    (∀ name, r.namespaceName = anchor → r.resourceName = some name →
      ¬ (r.resourceType = anchor ∧ r.subAction.isSome) →
      classify (render before r slash) = some ⟨r.resourceType, name, r.subAction, none⟩) ∧
    ∀ before' slash', (∀ s ∈ before', IsSegment s) →
      classify (render before' r slash') = classify (render before r slash) := by
  refine ⟨classify_render_eq_some_self_iff hbefore hr,
    fun name action => classify_render_of_resourceType hbefore hr,
    fun name => classify_render_of_namespaceName hbefore hr, ?_⟩
  intro before' slash' hbefore'
  by_cases htype : r.resourceType = anchor ∧ r.subAction.isSome
  · obtain ⟨action, haction⟩ := Option.isSome_iff_exists.mp htype.2
    obtain ⟨name, hname⟩ := Option.isSome_iff_exists.mp (hr.resourceNamed htype.2)
    rw [classify_render_of_resourceType hbefore' hr htype.1 hname haction,
      classify_render_of_resourceType hbefore hr htype.1 hname haction]
  · by_cases hnamespace : r.namespaceName = anchor ∧ r.resourceName.isSome
    · obtain ⟨name, hname⟩ := Option.isSome_iff_exists.mp hnamespace.2
      rw [classify_render_of_namespaceName hbefore' hr hnamespace.1 hname htype,
        classify_render_of_namespaceName hbefore hr hnamespace.1 hname htype]
    · rw [(classify_render_eq_some_self_iff hbefore' hr).mpr ⟨hnamespace, htype⟩,
        (classify_render_eq_some_self_iff hbefore hr).mpr ⟨hnamespace, htype⟩]

/-- Both the namespace and the resource type are named like the anchor, and the later one counts. -/
theorem classify_render_exact_selfReferential :
    let r : ResourceRequest := ⟨anchor, anchor, some "topics", some "t1"⟩
    (∀ s ∈ ["api", "v 1"], IsSegment s) ∧ r.WellFormed ∧
    render ["api", "v 1"] r true = "/api/v 1/namespaces/namespaces/namespaces/topics/t1/" ∧
    classify (render ["api", "v 1"] r true) ≠ some r ∧
    classify (render ["api", "v 1"] r true) = some ⟨"topics", "t1", none, none⟩ ∧
    classify (render [] r false) = some ⟨"topics", "t1", none, none⟩ := by
  intro r
  have hbefore : ∀ s ∈ ["api", "v 1"], IsSegment s := by decide +kernel
  have hr : r.WellFormed := ⟨by decide +kernel, fun _ => rfl⟩
  obtain ⟨hself, hread, -, hbelow⟩ := classify_render_exact hbefore hr true
  have hmisread := hread _ _ rfl rfl rfl
  refine ⟨hbefore, hr, by decide +kernel, ?_, hmisread, ?_⟩
  · intro h
    exact (hself.mp h).2 ⟨rfl, rfl⟩
  · rw [hbelow [] false (by simp), hmisread]

end NamespaceAccess.RequestPath
