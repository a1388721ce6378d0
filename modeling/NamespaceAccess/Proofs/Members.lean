import NamespaceAccess.Proofs.Reading
import Mathlib.Data.List.Forall2

/-!
Which values stand for a record, and what they give for its fields. Of an object only the members
with the names of the fields count.
-/
namespace NamespaceAccess

theorem mapM_eq_some_iff {α β : Type} {f : α → Option β} {l : List α} {l' : List β} :
    l.mapM f = some l' ↔ List.Forall₂ (fun a b => f a = some b) l l' := by
  induction l generalizing l' with
  | nil => simp [eq_comm]
  | cons a l ih =>
    rw [List.mapM_cons, List.forall₂_cons_left_iff]
    constructor
    · intro h
      obtain ⟨b, hb, h⟩ := Option.bind_eq_some_iff.mp h
      obtain ⟨bs, hbs, h⟩ := Option.bind_eq_some_iff.mp h
      cases h
      exact ⟨b, bs, hb, ih.mp hbs, rfl⟩
    · rintro ⟨b, bs, hb, hbs, rfl⟩
      simp [hb, ih.mpr hbs]

theorem mapM_congr {α β : Type} {f g : α → Option β} {l : List α} (h : ∀ a ∈ l, f a = g a) :
    l.mapM f = l.mapM g := by
  induction l with
  | nil => rfl
  | cons a l ih =>
    rw [List.forall_mem_cons] at h
    rw [List.mapM_cons, List.mapM_cons, h.1, ih h.2]

theorem exists_of_forall₂ {α β : Type} {r : α → β → Prop} {l : List α} {l' : List β}
    (h : List.Forall₂ r l l') {a : α} (ha : a ∈ l) : ∃ b ∈ l', r a b := by
  induction h with
  | nil => contradiction
  | @cons a b l l' hab _ ih =>
    rcases List.mem_cons.mp ha with rfl | ha
    · exact ⟨b, List.mem_cons_self, hab⟩
    · obtain ⟨b, hb, hab⟩ := ih ha
      exact ⟨b, List.mem_cons_of_mem _ hb, hab⟩

namespace Json

variable {members : List (JsonText × Json)} {names : List String} {values : List Json}
  {name : String} {v w : Json}

def Once (members : List (JsonText × Json)) (name : String) (v : Json) : Prop :=
  (members.map Prod.fst).count (some name) = 1 ∧ (some name, v) ∈ members

theorem length_filter_name :
    (members.filter fun m => m.1 == some name).length =
      (members.map Prod.fst).count (some name) := by
  rw [List.count, List.countP_map, List.countP_eq_length_filter]
  rfl

theorem mem_filter_name :
    (some name, v) ∈ members.filter (fun m => m.1 == some name) ↔ (some name, v) ∈ members := by
  simp

theorem member?_eq_some_iff : member? members name = some v ↔ Once members name v := by
  rw [Once, ← length_filter_name, ← mem_filter_name, member?]
  constructor
  · intro h
    split at h
    next m hfilter =>
      cases h
      have hm : m ∈ members.filter fun m => m.1 == some name := by simp [hfilter]
      have hname : m.1 = some name := by simpa using (List.mem_filter.mp hm).2
      rw [hfilter, ← hname]
      exact ⟨rfl, List.mem_singleton_self m⟩
    next => contradiction
  · rintro ⟨hlength, hmem⟩
    obtain ⟨m, hfilter⟩ := List.length_eq_one_iff.mp hlength
    rw [hfilter, List.mem_singleton] at hmem
    rw [hfilter, ← hmem]

theorem Once.eq_of_mem (h : Once members name v) (hw : (some name, w) ∈ members) : w = v := by
  have hfound : member? members name = some w := member?_eq_some_iff.mpr ⟨h.1, hw⟩
  rw [member?_eq_some_iff.mpr h] at hfound
  exact (Option.some.inj hfound).symm

theorem forall₂_once_iff :
    List.Forall₂ (Once members) names values ↔ names.mapM (member? members) = some values := by
  rw [mapM_eq_some_iff]
  simp only [member?_eq_some_iff]

/-- Whether every string in the value has a text. An escaped half of a surrogate pair that stands
alone has none. -/
def WholeTexts (v : Json) : Prop := .string none ∉ v.tokens

section wholeTexts

theorem itemTokens_subset {items : List Json} (h : v ∈ items) :
    v.tokens ⊆ itemTokens items := by
  induction items with
  | nil => contradiction
  | cons u items ih =>
    cases items with
    | nil =>
      rw [List.mem_singleton] at h
      rw [itemTokens, h]
      exact List.Subset.refl _
    | cons u' items =>
      rw [itemTokens]
      rcases List.mem_cons.mp h with rfl | h
      · exact List.subset_append_left _ _
      · exact List.subset_append_of_subset_right _ (List.subset_cons_of_subset _ (ih h))

theorem memberTokens_subset {m : JsonText × Json} (h : m ∈ members) :
    .string m.1 :: m.2.tokens ⊆ memberTokens members := by
  induction members with
  | nil => contradiction
  | cons n members ih =>
    cases members with
    | nil =>
      rw [List.mem_singleton] at h
      rw [memberTokens, h]
      exact List.cons_subset_cons _ (List.subset_cons_self _ _)
    | cons n' members =>
      rw [memberTokens]
      rcases List.mem_cons.mp h with rfl | h
      · refine List.cons_subset_cons _ (List.subset_cons_of_subset _ ?_)
        exact List.subset_append_left _ _
      · refine List.subset_cons_of_subset _ (List.subset_cons_of_subset _ ?_)
        exact List.subset_append_of_subset_right _ (List.subset_cons_of_subset _ (ih h))

theorem WholeTexts.item {items : List Json} (h : (array items).WholeTexts) (hv : v ∈ items) :
    v.WholeTexts := by
  intro hnone
  exact h (by simp [tokens, itemTokens_subset hv hnone])

theorem WholeTexts.member {m : JsonText × Json} (h : (object members).WholeTexts)
    (hm : m ∈ members) : m.1.isSome ∧ m.2.WholeTexts := by
  have hsub := memberTokens_subset hm
  have hnone : .string none ∉ memberTokens members := by
    intro hnone
    exact h (by simp [tokens, hnone])
  constructor
  · by_contra hname
    rw [Option.not_isSome_iff_eq_none] at hname
    exact hnone (hsub (by simp [hname]))
  · exact fun hvalue => hnone (hsub (List.mem_cons_of_mem _ hvalue))

end wholeTexts

/-- What a value gives for the fields of a record. An object has each of them once, whatever else it
has; an array has them alone, in their order. -/
inductive Gives (names : List String) (values : List Json) : Json → Prop where
  | array (h : values.length = names.length) : Gives names values (array values)
  | object {members : List (JsonText × Json)} (h : List.Forall₂ (Once members) names values) :
    Gives names values (object members)

theorem gives_object_iff :
    (object members).Gives names values ↔ List.Forall₂ (Once members) names values := by
  refine ⟨fun h => ?_, .object⟩
  cases h with
  | object h => exact h

theorem fields?_object (h : (object members).WholeTexts) :
    (object members).fields? names = names.mapM (member? members) := by
  rw [fields?, if_pos]
  exact List.all_eq_true.mpr fun m hm => (h.member hm).1

theorem fields?_object_congr {others : List (JsonText × Json)} (h : (object members).WholeTexts)
    (hothers : (object others).WholeTexts)
    (hsame : ∀ name ∈ names, ∀ v, Once members name v ↔ Once others name v) :
    (object members).fields? names = (object others).fields? names := by
  rw [fields?_object h, fields?_object hothers]
  refine mapM_congr fun name hname => ?_
  apply Option.ext
  intro v
  rw [member?_eq_some_iff, member?_eq_some_iff, hsame name hname]

theorem fields?_eq_some_iff (h : v.WholeTexts) :
    v.fields? names = some values ↔ v.Gives names values := by
  cases v with
  | array items =>
    rw [fields?, Option.ite_none_right_eq_some, Option.some_inj]
    constructor
    · rintro ⟨hlength, rfl⟩
      exact .array hlength
    · intro h
      cases h with
      | array hlength => exact ⟨hlength, rfl⟩
  | object members =>
    rw [fields?_object h, gives_object_iff, forall₂_once_iff]
  | null | bool b | number n | string s =>
    refine ⟨fun h => by contradiction, fun h => ?_⟩
    cases h

theorem Gives.wholeTexts (h : v.Gives names values) (hwhole : v.WholeTexts) :
    ∀ w ∈ values, w.WholeTexts := by
  cases h with
  | array _ => exact fun w hw => hwhole.item hw
  | object h =>
    intro w hw
    obtain ⟨name, -, honce⟩ := exists_of_forall₂ h.flip hw
    exact (hwhole.member honce.2).2

theorem Gives.unique {others : List Json} (h : v.Gives names values) (h' : v.Gives names others) :
    values = others := by
  cases h with
  | array _ =>
    cases h'
    rfl
  | object h =>
    cases h' with
    | object h' =>
      rw [forall₂_once_iff] at h h'
      exact Option.some.inj (h.symm.trans h')

def Faulty (names : List String) (members : List (JsonText × Json)) : Prop :=
  ∃ name ∈ names, (members.map Prod.fst).count (some name) ≠ 1 ∨ (some name, null) ∈ members

theorem Gives.not_faulty (h : (Json.object members).Gives names values) (hnull : null ∉ values) :
    ¬ Faulty names members := by
  rw [gives_object_iff] at h
  rintro ⟨name, hname, hfault⟩
  obtain ⟨v, hv, honce⟩ := exists_of_forall₂ h hname
  rcases hfault with hcount | hmem
  · exact hcount honce.1
  · exact hnull (honce.eq_of_mem hmem ▸ hv)

/-- The names of a variant: its text, or an object with that text as its one key and `null` as its
value. -/
inductive Names (label : String) : Json → Prop where
  | text : Names label (string (some label))
  | key : Names label (object [(some label, null)])

theorem text?_eq_some_iff {s : String} : v.text? = some s ↔ v = ofString s := by
  cases v <;> simp [text?, ofString]

theorem variant?_eq_some_iff {label : String} : v.variant? = some label ↔ v.Names label := by
  constructor
  · intro h
    unfold variant? at h
    split at h
    next => exact h ▸ .text
    next => exact h ▸ .key
    next => contradiction
  · rintro (_ | _) <;> rfl

end Json

end NamespaceAccess
