/-!
Classes of characters that the rules on names, settings and documents refer to, text without regard
to the case of ASCII letters, and text cut at a character.
-/
namespace NamespaceAccess

/-- The characters with the property White_Space. -/
def isWhiteSpace (c : Char) : Bool :=
  (0x9 ≤ c.toNat && c.toNat ≤ 0xD) || c.toNat == 0x20 || c.toNat == 0x85 || c.toNat == 0xA0 ||
    c.toNat == 0x1680 || (0x2000 ≤ c.toNat && c.toNat ≤ 0x200A) || c.toNat == 0x2028 ||
    c.toNat == 0x2029 || c.toNat == 0x202F || c.toNat == 0x205F || c.toNat == 0x3000

/-- The characters of general category Cc. -/
def isControl (c : Char) : Bool :=
  c.toNat ≤ 0x1F || (0x7F ≤ c.toNat && c.toNat ≤ 0x9F)

def isBlank (s : String) : Bool := s.toList.all isWhiteSpace

/-- Only ASCII letters have two cases here; every other character equals itself alone. -/
def equalsIgnoringAsciiCase (s t : String) : Bool :=
  s.toList.map Char.toLower == t.toList.map Char.toLower

def hexDigitValue? (c : Char) : Option Nat :=
  if '0' ≤ c && c ≤ '9' then some (c.toNat - '0'.toNat)
  else if 'a' ≤ c && c ≤ 'f' then some (c.toNat - 'a'.toNat + 10)
  else if 'A' ≤ c && c ≤ 'F' then some (c.toNat - 'A'.toNat + 10)
  else none

/-- The twenty-five code points with the property White_Space. -/
def whiteSpaceCodes : List Nat :=
  [0x09, 0x0A, 0x0B, 0x0C, 0x0D, 0x20, 0x85, 0xA0, 0x1680, 0x2000, 0x2001, 0x2002, 0x2003, 0x2004,
    0x2005, 0x2006, 0x2007, 0x2008, 0x2009, 0x200A, 0x2028, 0x2029, 0x202F, 0x205F, 0x3000]

def WhiteSpace (c : Char) : Prop := c.toNat ∈ whiteSpaceCodes

/-- The control codes of ASCII, the delete character and the thirty-two codes after it. -/
def ControlCode (c : Char) : Prop := c.toNat < 32 ∨ c.toNat = 127 ∨ (128 ≤ c.toNat ∧ c.toNat < 160)

theorem isWhiteSpace_iff {c : Char} : isWhiteSpace c ↔ WhiteSpace c := by
  simp only [isWhiteSpace, WhiteSpace, whiteSpaceCodes, Bool.or_eq_true, Bool.and_eq_true,
    decide_eq_true_eq, beq_iff_eq, List.mem_cons, List.not_mem_nil, or_false]
  omega

theorem isControl_iff {c : Char} : isControl c ↔ ControlCode c := by
  simp only [isControl, ControlCode, Bool.or_eq_true, Bool.and_eq_true, decide_eq_true_eq]
  omega

instance (c : Char) : Decidable (WhiteSpace c) := inferInstanceAs (Decidable (_ ∈ _))

instance (c : Char) : Decidable (ControlCode c) := inferInstanceAs (Decidable (_ ∨ _))

theorem not_mem_of_mem_splitOn {α : Type} [BEq α] [LawfulBEq α] {separator : α} {l piece : List α}
    (h : piece ∈ l.splitOn separator) : separator ∉ piece := by
  induction l generalizing piece with
  | nil => simp_all
  | cons c l ih =>
    rw [List.splitOn_cons_eq_if_modifyHead] at h
    split at h
    · rcases List.mem_cons.mp h with rfl | h
      · simp
      · exact ih h
    · next hc =>
      obtain ⟨first, rest, hsplit⟩ := List.exists_cons_of_ne_nil (List.splitOn_ne_nil separator l)
      rw [hsplit, List.modifyHead_cons] at h
      rw [hsplit] at ih
      rcases List.mem_cons.mp h with rfl | h
      · rw [List.mem_cons, not_or]
        exact ⟨by rintro rfl; simp at hc, ih List.mem_cons_self⟩
      · exact ih (List.mem_cons_of_mem _ h)

end NamespaceAccess
