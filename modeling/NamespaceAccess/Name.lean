/-!
The grammar of names: what may stand in one segment of a request path.
-/
namespace NamespaceAccess

/-- Names use ASCII letters, digits, underscores, dots and hyphens. -/
def isNameChar (c : Char) : Bool := c.isAlphanum || c == '_' || c == '.' || c == '-'

def isName (s : String) : Bool := !s.isEmpty && s.toList.all isNameChar

/-- The codes of the name characters, all of them below 128. -/
def nameCodes : List Nat := (List.range 256).filter fun n => isNameChar (Char.ofNat n)

theorem isName_iff {s : String} : isName s ↔ s ≠ "" ∧ ∀ c ∈ s.toList, isNameChar c := by
  simp [isName]

theorem isNameChar_iff {c : Char} :
    isNameChar c ↔ ('A' ≤ c ∧ c ≤ 'Z') ∨ ('a' ≤ c ∧ c ≤ 'z') ∨ ('0' ≤ c ∧ c ≤ '9') ∨
      c = '_' ∨ c = '.' ∨ c = '-' := by
  have hupper : c.isUpper = decide ('A' ≤ c ∧ c ≤ 'Z') := rfl
  have hlower : c.isLower = (decide ('a' ≤ c) && decide (c ≤ 'z')) := rfl
  have hdigit : c.isDigit = (decide ('0' ≤ c) && decide (c ≤ '9')) := rfl
  have halphanum : c.isAlphanum = (c.isUpper || c.isLower || c.isDigit) := rfl
  simp [isNameChar, halphanum, hupper, hlower, hdigit, or_assoc]

structure NameText (s : String) : Prop where
  nonempty : s ≠ ""
  chars : ∀ c ∈ s.toList, ('A' ≤ c ∧ c ≤ 'Z') ∨ ('a' ≤ c ∧ c ≤ 'z') ∨ ('0' ≤ c ∧ c ≤ '9') ∨
    c = '_' ∨ c = '.' ∨ c = '-'

theorem nameText_iff {s : String} : NameText s ↔ isName s := by
  rw [isName_iff]
  constructor
  · rintro ⟨hne, hchars⟩
    exact ⟨hne, fun c hc => isNameChar_iff.mpr (hchars c hc)⟩
  · rintro ⟨hne, hchars⟩
    exact ⟨hne, fun c hc => isNameChar_iff.mp (hchars c hc)⟩

instance (s : String) : Decidable (NameText s) := decidable_of_iff _ nameText_iff.symm

theorem NameText.slash_not_mem {s : String} (h : NameText s) : '/' ∉ s.toList := by
  intro hslash
  have hchar := h.chars _ hslash
  revert hchar
  decide

end NamespaceAccess
