import NamespaceAccess.ResourceRequest
import NamespaceAccess.Text

/-!
Which paths are classified, and as what. A path is read after the last anchor that two to four
segments follow, and an earlier anchor is never tried again.
-/
namespace NamespaceAccess

namespace ResourceRequest

structure WellFormed (r : ResourceRequest) : Prop where
  names : ∀ s ∈ r.segments, NameText s
  resourceNamed : r.subAction.isSome → r.resourceName.isSome

theorem two_le_length_segments (r : ResourceRequest) : 2 ≤ r.segments.length := by
  simp only [segments, List.length_cons]
  omega

theorem length_segments_le (r : ResourceRequest) : r.segments.length ≤ 4 := by
  cases h : r.resourceName <;> cases h' : r.subAction <;> simp [segments, h, h']

theorem ofSegments?_eq_some_iff {tail : List String} {r : ResourceRequest} :
    ofSegments? tail = some r ↔
      tail = r.segments ∧ (r.subAction.isSome → r.resourceName.isSome) := by
  constructor
  · intro h
    unfold ofSegments? at h
    split at h <;> cases h <;> simp [segments]
  · rintro ⟨rfl, hnamed⟩
    obtain ⟨n, t, name, action⟩ := r
    cases name <;> cases action <;> simp_all [segments, ofSegments?]

theorem exists_ofSegments? {tail : List String} (h : 2 ≤ tail.length) (h' : tail.length ≤ 4) :
    ∃ r, ofSegments? tail = some r := by
  match tail with
  | [n, t] => exact ⟨_, rfl⟩
  | [n, t, name] => exact ⟨_, rfl⟩
  | [n, t, name, action] => exact ⟨_, rfl⟩
  | [] | [_] | _ :: _ :: _ :: _ :: _ :: _ =>
    simp only [List.length_cons, List.length_nil] at h h'
    omega

end ResourceRequest

namespace RequestPath

def IsSegment (s : String) : Prop := s ≠ "" ∧ '/' ∉ s.toList

instance (s : String) : Decidable (IsSegment s) := inferInstanceAs (Decidable (_ ∧ _))

/-- Further anchors count when at least two segments follow them. -/
def HasLaterAnchor (tail : List String) : Prop :=
  ∃ between after, tail = between ++ anchor :: after ∧ 2 ≤ after.length

section join

theorem join_concat_empty {segments : List String} (hne : segments ≠ []) :
    join (segments ++ [""]) false = join segments true := by
  simp [join, String.intercalate_append_of_ne_nil hne, String.append_assoc]

/-- One slash at the end makes no difference. -/
theorem segments?_join_slash {segments : List String} (slash : Bool) (hne : segments ≠ [])
    (h : ∀ s ∈ segments, '/' ∉ s.toList) (hlast : segments.getLast? ≠ some "") :
    segments? (join segments slash) = some segments := by
  cases slash with
  | false => exact segments?_join hne h hlast
  | true =>
    have hne' : segments ++ [""] ≠ [] := by simp
    have h' : ∀ s ∈ segments ++ [""], '/' ∉ s.toList := by
      intro s hs
      rcases List.mem_append.mp hs with hs | hs
      · exact h s hs
      · rw [List.mem_singleton.mp hs]
        simp
    have hmap : ((segments ++ [""]).map String.toList).map String.ofList = segments ++ [""] := by
      simp [List.map_map, Function.comp_def, String.ofList_toList]
    rw [← join_concat_empty hne]
    simp only [segments?, toList_join, splitOn_join hne' h', hmap, dropTrailingEmpty_concat]

/-- Cutting a path into segments loses only whether it ended with a slash. -/
theorem exists_join_of_segments? {path : String} {segments : List String} (hne : segments ≠ [])
    (h : segments? path = some segments) :
    (∃ slash, path = join segments slash) ∧ ∀ s ∈ segments, '/' ∉ s.toList := by
  unfold segments? at h
  split at h
  case h_2 => contradiction
  next rest hpath =>
    obtain ⟨pieces, hpieces⟩ : ∃ pieces, pieces = (rest.splitOn '/').map String.ofList := ⟨_, rfl⟩
    have hjoin : path = join pieces false := by
      rw [← String.toList_inj, toList_join, hpath, hpieces]
      simp [List.map_map, Function.comp_def, List.intercalate_splitOn]
    have hslash : ∀ s ∈ pieces, '/' ∉ s.toList := by
      intro s hs
      rw [hpieces] at hs
      obtain ⟨piece, hpiece, rfl⟩ := List.mem_map.mp hs
      simpa using not_mem_of_mem_splitOn hpiece
    rw [← hpieces, Option.some_inj] at h
    by_cases hlast : pieces.getLast? = some ""
    · obtain ⟨init, rfl⟩ := List.getLast?_eq_some_iff.mp hlast
      rw [dropTrailingEmpty_concat] at h
      subst h
      exact ⟨⟨true, hjoin.trans (join_concat_empty hne)⟩, fun s hs =>
        hslash s (List.mem_append_left _ hs)⟩
    · rw [dropTrailingEmpty_of_getLast? hlast] at h
      subst h
      exact ⟨⟨false, hjoin⟩, hslash⟩

end join

section anchors

variable {segments before tail : List String}

theorem splitAtAnchor?_isSome (before : List String) (h : 2 ≤ tail.length)
    (h' : tail.length ≤ 4) :
    (splitAtAnchor? (before ++ anchor :: tail)).isSome := by
  induction before with
  | nil =>
    rw [List.nil_append, splitAtAnchor?]
    split
    · rfl
    · rw [if_pos ⟨rfl, h, h'⟩]
      rfl
  | cons s before ih =>
    obtain ⟨split, hsplit⟩ := Option.isSome_iff_exists.mp ih
    rw [List.cons_append, splitAtAnchor?, hsplit]
    rfl

theorem splitAtAnchor?_sound (h : splitAtAnchor? segments = some (before, tail)) :
    segments = before ++ anchor :: tail ∧ 2 ≤ tail.length ∧ tail.length ≤ 4 ∧
      splitAtAnchor? tail = none := by
  induction segments generalizing before with
  | nil => simp [splitAtAnchor?] at h
  | cons s rest ih =>
    rw [splitAtAnchor?] at h
    split at h
    next between after hrest =>
      cases h
      obtain ⟨hsegments, hlength⟩ := ih hrest
      exact ⟨by rw [hsegments, List.cons_append], hlength⟩
    next hrest =>
      split at h
      next hs =>
        cases h
        exact ⟨by rw [hs.1, List.nil_append], hs.2.1, hs.2.2, hrest⟩
      next => contradiction

/-- The anchor that is chosen has no other to its right that could be chosen. -/
theorem splitAtAnchor?_eq_none_iff_of_length_le (h : tail.length ≤ 4) :
    splitAtAnchor? tail = none ↔ ¬ HasLaterAnchor tail := by
  constructor
  · rintro hnone ⟨between, after, rfl, hafter⟩
    have hle : after.length ≤ 4 := by
      simp only [List.length_append, List.length_cons] at h
      omega
    have := splitAtAnchor?_isSome between hafter hle
    rw [hnone] at this
    contradiction
  · intro hlater
    rw [Option.eq_none_iff_forall_ne_some]
    rintro ⟨between, after⟩ hsplit
    obtain ⟨htail, hafter, -⟩ := splitAtAnchor?_sound hsplit
    exact hlater ⟨between, after, htail, hafter⟩

theorem splitAtAnchor?_append (front : List String)
    (h : splitAtAnchor? segments = some (before, tail)) :
    splitAtAnchor? (front ++ segments) = some (front ++ before, tail) := by
  induction front with
  | nil => exact h
  | cons s front ih => rw [List.cons_append, splitAtAnchor?, ih, List.cons_append]

theorem splitAtAnchor?_eq_some (h : 2 ≤ tail.length) (h' : tail.length ≤ 4)
    (hlater : ¬ HasLaterAnchor tail) :
    splitAtAnchor? (before ++ anchor :: tail) = some (before, tail) := by
  have hanchor : splitAtAnchor? (anchor :: tail) = some ([], tail) := by
    rw [splitAtAnchor?, (splitAtAnchor?_eq_none_iff_of_length_le h').mpr hlater]
    exact if_pos ⟨rfl, h, h'⟩
  simpa using splitAtAnchor?_append before hanchor

end anchors

section classify

variable {path : String} {before tail : List String} {r : ResourceRequest} {slash : Bool}

theorem all_segments_iff :
    (before.all (!·.isEmpty) && tail.all isName) = true ↔
      (∀ s ∈ before, s ≠ "") ∧ ∀ s ∈ tail, NameText s := by
  simp [nameText_iff]

/-- What stands before the anchor and what follows it is found again in the joined path. -/
theorem segments?_join_anchor (slash : Bool) (hbefore : ∀ s ∈ before, IsSegment s)
    (htail : ∀ s ∈ tail, NameText s) (hne : tail ≠ []) :
    segments? (join (before ++ anchor :: tail) slash) = some (before ++ anchor :: tail) := by
  apply segments?_join_slash
  · simp
  · intro s hs
    rcases List.mem_append.mp hs with hs | hs
    · exact (hbefore s hs).2
    · rcases List.mem_cons.mp hs with rfl | hs
      · decide
      · exact (htail s hs).slash_not_mem
  · intro hlast
    obtain ⟨last, htaillast⟩ := Option.isSome_iff_exists.mp (List.getLast?_isSome.mpr hne)
    have hlast : last = "" := by simpa [List.getLast?_cons, htaillast] using hlast
    exact (htail last (List.mem_of_getLast? htaillast)).nonempty hlast

theorem classify_of_split {segments : List String} (hsegments : segments? path = some segments)
    (hsplit : splitAtAnchor? segments = some (before, tail))
    (hbefore : ∀ s ∈ before, s ≠ "") (htail : ∀ s ∈ tail, NameText s) :
    classify path = ResourceRequest.ofSegments? tail := by
  simp only [classify, hsegments, hsplit, Option.bind_eq_bind, Option.bind_some]
  exact if_pos (all_segments_iff.mpr ⟨hbefore, htail⟩)

theorem classify_render (hbefore : ∀ s ∈ before, IsSegment s) (hr : r.WellFormed)
    (hlater : ¬ HasLaterAnchor r.segments) : classify (render before r slash) = some r := by
  have hne : r.segments ≠ [] := by simp [ResourceRequest.segments]
  rw [render, classify_of_split (segments?_join_anchor slash hbefore hr.names hne)
    (splitAtAnchor?_eq_some r.two_le_length_segments r.length_segments_le hlater)
    (fun s hs => (hbefore s hs).1) hr.names]
  exact ResourceRequest.ofSegments?_eq_some_iff.mpr ⟨rfl, hr.resourceNamed⟩

/-- A classified path is the rendering of its request below some segments. -/
theorem classify_sound (h : classify path = some r) :
    ∃ before slash, path = render before r slash ∧ (∀ s ∈ before, IsSegment s) ∧
      r.WellFormed ∧ ¬ HasLaterAnchor r.segments := by
  simp only [classify, Option.bind_eq_bind, Option.bind_eq_some_iff, Prod.exists] at h
  obtain ⟨segments, hsegments, before, tail, hsplit, h⟩ := h
  split at h
  case isFalse => contradiction
  next hall =>
    obtain ⟨hbefore, htail⟩ := all_segments_iff.mp hall
    obtain ⟨rfl, hnamed⟩ := ResourceRequest.ofSegments?_eq_some_iff.mp h
    obtain ⟨rfl, -, hle, hnone⟩ := splitAtAnchor?_sound hsplit
    obtain ⟨⟨slash, hpath⟩, hslash⟩ := exists_join_of_segments? (by simp) hsegments
    refine ⟨before, slash, hpath, fun s hs => ⟨hbefore s hs, ?_⟩, ⟨htail, hnamed⟩, ?_⟩
    · exact hslash s (List.mem_append_left _ hs)
    · exact (splitAtAnchor?_eq_none_iff_of_length_le hle).mp hnone

/-- The last anchor is at least as good as any other: what follows it is part of what follows the
others, and what stands before it is made of their segments. -/
theorem classify_isSome_of_anchor (hbefore : ∀ s ∈ before, IsSegment s)
    (htail : ∀ s ∈ tail, NameText s) (h : 2 ≤ tail.length) (h' : tail.length ≤ 4) :
    (classify (join (before ++ anchor :: tail) slash)).isSome := by
  have hne : tail ≠ [] := by
    rintro rfl
    simp at h
  have hsegments := segments?_join_anchor slash hbefore htail hne
  obtain ⟨between, after, htaileq, hafter, hafter', hlater⟩ :
      ∃ between after, anchor :: tail = between ++ anchor :: after ∧ 2 ≤ after.length ∧
        after.length ≤ 4 ∧ ¬ HasLaterAnchor after := by
    obtain ⟨⟨between, after⟩, hsplit⟩ := Option.isSome_iff_exists.mp
      (splitAtAnchor?_isSome [] h h')
    obtain ⟨heq, h2, h4, hnone⟩ := splitAtAnchor?_sound hsplit
    exact ⟨between, after, heq, h2, h4, (splitAtAnchor?_eq_none_iff_of_length_le h4).mp hnone⟩
  have hnames : ∀ s ∈ anchor :: tail, NameText s := by
    intro s hs
    rcases List.mem_cons.mp hs with rfl | hs
    · decide
    · exact htail s hs
  have hbetween : ∀ s ∈ before ++ between, s ≠ "" := by
    intro s hs
    rcases List.mem_append.mp hs with hs | hs
    · exact (hbefore s hs).1
    · exact (hnames s (htaileq ▸ List.mem_append_left _ hs)).nonempty
  have hafternames : ∀ s ∈ after, NameText s := fun s hs =>
    hnames s (htaileq ▸ List.mem_append_right _ (List.mem_cons_of_mem _ hs))
  rw [htaileq, ← List.append_assoc] at hsegments ⊢
  rw [classify_of_split hsegments (splitAtAnchor?_eq_some hafter hafter' hlater) hbetween
    hafternames]
  obtain ⟨r, hr⟩ := ResourceRequest.exists_ofSegments? hafter hafter'
  rw [hr]
  rfl

/-- A path is classified as a request exactly if it renders that request and the request holds no
further anchor. Paths with any usable anchor at all are classified. -/
theorem classify_exact (path : String) :
    (∀ r, classify path = some r ↔ ∃ before slash, path = render before r slash ∧
      (∀ s ∈ before, IsSegment s) ∧ r.WellFormed ∧ ¬ HasLaterAnchor r.segments) ∧
    ((classify path).isSome ↔ ∃ before tail slash, path = join (before ++ anchor :: tail) slash ∧
      (∀ s ∈ before, IsSegment s) ∧ (∀ s ∈ tail, NameText s) ∧
      2 ≤ tail.length ∧ tail.length ≤ 4) := by
  refine ⟨fun r => ⟨classify_sound, ?_⟩, ?_, ?_⟩
  · rintro ⟨before, slash, rfl, hbefore, hr, hlater⟩
    exact classify_render hbefore hr hlater
  · intro h
    obtain ⟨r, hr⟩ := Option.isSome_iff_exists.mp h
    obtain ⟨before, slash, hpath, hbefore, hwf, -⟩ := classify_sound hr
    exact ⟨before, r.segments, slash, hpath, hbefore, hwf.names, r.two_le_length_segments,
      r.length_segments_le⟩
  · rintro ⟨before, tail, slash, rfl, hbefore, htail, h, h'⟩
    exact classify_isSome_of_anchor hbefore htail h h'

/-- Of three segments named like the anchor, two are followed by too much or too little. -/
theorem classify_exact_nested :
    let path := "/namespaces/v 1/namespaces/namespaces/topics/"
    let r : ResourceRequest := ⟨anchor, "topics", none, none⟩
    path = render ["namespaces", "v 1"] r true ∧ (∀ s ∈ ["namespaces", "v 1"], IsSegment s) ∧
      r.WellFormed ∧ ¬ HasLaterAnchor r.segments ∧ classify path = some r ∧
      (classify path).isSome := by
  intro path r
  have hpath : path = render ["namespaces", "v 1"] r true := by decide +kernel
  have hbefore : ∀ s ∈ ["namespaces", "v 1"], IsSegment s := by decide +kernel
  have hr : r.WellFormed := ⟨by decide +kernel, by decide⟩
  have hlater : ¬ HasLaterAnchor r.segments :=
    (splitAtAnchor?_eq_none_iff_of_length_le r.length_segments_le).mp (by decide +kernel)
  obtain ⟨hclassified, hsome⟩ := classify_exact path
  exact ⟨hpath, hbefore, hr, hlater,
    (hclassified r).mpr ⟨_, true, hpath, hbefore, hr, hlater⟩,
    hsome.mpr ⟨_, r.segments, true, hpath, hbefore, hr.names, by decide, by decide⟩⟩

end classify

end RequestPath

end NamespaceAccess
