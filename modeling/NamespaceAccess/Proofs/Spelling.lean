import NamespaceAccess.Json.Grammar
import Mathlib.Data.List.Chain
import Mathlib.Data.List.TakeWhile

/-!
The lexer reads the tokens of a text, however they are spelled and whatever blanks are between
them. Words and numbers have no end of their own, so no two of them may stand next to each other.
-/
namespace NamespaceAccess.JsonToken

theorem lexFrom_cons {done ts : List JsonToken} {state next : State} {c : Char} {r : List Char}
    (h : step state c = some (ts, next)) :
    lexFrom done state (c :: r) = lexFrom (ts.reverse ++ done) next r := by
  simp only [lexFrom, h]

section strings

variable {done : List JsonToken} {pieces ps : List Piece} {rest : List Char}

theorem lexFrom_hexText {digits : List Char} {n : Nat} (h : HexText digits n)
    (hlength : digits.length ≤ 3) :
    lexFrom done (.inUnit pieces 0 0) (digits ++ rest) =
      lexFrom done (.inUnit pieces digits.length n) rest := by
  induction h generalizing rest with
  | nil => rfl
  | @concat digits n m c _ hc ih =>
    rw [List.length_append, List.length_singleton] at hlength ⊢
    have hlt : digits.length < 3 := by omega
    have hstep : step (.inUnit pieces digits.length n) c =
        some ([], .inUnit pieces (digits.length + 1) (16 * n + m)) := by
      simp [step, hc, hlt]
    rw [List.append_assoc, ih (by omega), List.singleton_append, lexFrom_cons hstep]
    rfl

theorem lexFrom_pieceText {p : Piece} {text : List Char} (h : PieceText p text) :
    lexFrom done (.inString pieces) (text ++ rest) =
      lexFrom done (.inString (p :: pieces)) rest := by
  have hbackslash : step (.inString pieces) '\\' = some ([], .inEscape pieces) := rfl
  cases h with
  | @plain c hquote hplain hcontrol =>
    have hstep : step (.inString pieces) c = some ([], .inString (.char c :: pieces)) := by
      simp [step, hquote, hplain, Nat.not_lt.mpr hcontrol]
    exact lexFrom_cons hstep
  | @escape e c he =>
    have hletter : e ≠ 'u' := by
      rintro rfl
      contradiction
    have hstep : step (.inEscape pieces) e = some ([], .inString (.char c :: pieces)) := by
      simp [step, hletter, he]
    rw [List.cons_append, lexFrom_cons hbackslash]
    exact lexFrom_cons hstep
  | @unit digits n hdigits hlength =>
    have hu : step (.inEscape pieces) 'u' = some ([], .inUnit pieces 0 0) := rfl
    cases hdigits with
    | nil => contradiction
    | @concat digits n m c hdigits hc =>
      rw [List.length_append, List.length_singleton] at hlength
      have hthree : digits.length = 3 := by omega
      have hstep : step (.inUnit pieces digits.length n) c =
          some ([], .inString (Piece.ofUnit (16 * n + m) :: pieces)) := by
        simp [step, hc, hthree]
      rw [List.cons_append, lexFrom_cons hbackslash, List.cons_append, lexFrom_cons hu,
        List.append_assoc]
      exact (lexFrom_hexText hdigits hthree.le).trans (lexFrom_cons hstep)

theorem lexFrom_body {body : List Char} (h : Body ps body) :
    lexFrom done (.inString pieces) (body ++ rest) =
      lexFrom done (.inString (ps.reverse ++ pieces)) rest := by
  induction h generalizing pieces with
  | nil => rfl
  | cons hp _ ih =>
    rw [List.append_assoc, lexFrom_pieceText hp, ih]
    simp

theorem joinPieces_of_makes {s text : List Char} (h : Makes ps s) :
    joinPieces (ps.reverse ++ pieces) text = joinPieces pieces (s ++ text) := by
  induction h generalizing pieces with
  | nil => rfl
  | char c _ ih =>
    rw [List.reverse_cons, List.append_assoc, ih]
    rfl
  | pair high low _ ih =>
    rw [List.reverse_cons, List.reverse_cons, List.append_assoc, List.append_assoc, ih]
    rfl

theorem exists_makes_of_joinPieces {text cs : List Char} (h : joinPieces pieces text = some cs) :
    ∃ s, cs = s ++ text ∧ Makes pieces.reverse s := by
  fun_induction joinPieces pieces text with
  | case1 text =>
    cases h
    exact ⟨[], rfl, .nil⟩
  | case2 c pieces text ih =>
    obtain ⟨s, rfl, hs⟩ := ih h
    refine ⟨s ++ [c], by simp, ?_⟩
    rw [List.reverse_cons]
    exact hs.append (.char c .nil)
  | case3 low high pieces text ih =>
    obtain ⟨s, rfl, hs⟩ := ih h
    refine ⟨_, List.append_cons .., ?_⟩
    rw [List.reverse_cons, List.reverse_cons, List.append_assoc]
    exact hs.append (.pair high low .nil)
  | case4 => contradiction

theorem textOf_eq_some_iff {s : String} :
    textOf pieces = some s ↔ Makes pieces.reverse s.toList := by
  rw [textOf, Option.map_eq_some_iff]
  constructor
  · rintro ⟨cs, hcs, rfl⟩
    obtain ⟨s, rfl, hs⟩ := exists_makes_of_joinPieces hcs
    simpa using hs
  · intro h
    have hjoin : joinPieces (pieces.reverse.reverse ++ []) [] = joinPieces [] (s.toList ++ []) :=
      joinPieces_of_makes h
    refine ⟨s.toList, ?_, String.ofList_toList⟩
    simpa [joinPieces] using hjoin

theorem textOf_eq_none_iff : textOf pieces = none ↔ ∀ cs, ¬ Makes pieces.reverse cs := by
  rw [Option.eq_none_iff_forall_ne_some]
  refine ⟨fun h cs hcs => h (String.ofList cs) ?_, fun h s hs => h _ (textOf_eq_some_iff.mp hs)⟩
  rwa [textOf_eq_some_iff, String.toList_ofList]

/-- Every cut of what stands between two quotes gives a string, or shows that it has no text. -/
theorem written_string_iff {s : JsonText} {text : List Char} :
    Written (.string s) text ↔
      ∃ pieces body, Body pieces.reverse body ∧ textOf pieces = s ∧
        text = '"' :: body ++ ['"'] := by
  constructor
  · intro h
    cases h with
    | sign h => simp at h
    | word h => simp at h
    | @string pieces body s hbody h =>
      refine ⟨pieces.reverse, body, ?_, ?_, rfl⟩
      · rwa [List.reverse_reverse]
      · rwa [textOf_eq_some_iff, List.reverse_reverse]
    | @noText pieces body hbody h =>
      refine ⟨pieces.reverse, body, ?_, ?_, rfl⟩
      · rwa [List.reverse_reverse]
      · rwa [textOf_eq_none_iff, List.reverse_reverse]
  · rintro ⟨pieces, body, hbody, hs, rfl⟩
    cases s with
    | none => exact .noText hbody (textOf_eq_none_iff.mp hs)
    | some s => exact .string hbody (textOf_eq_some_iff.mp hs)

theorem lexFrom_string {s : JsonText} {text : List Char} (h : Written (.string s) text) :
    lexFrom done .between (text ++ rest) = lexFrom (.string s :: done) .between rest := by
  obtain ⟨pieces, body, hbody, rfl, rfl⟩ := written_string_iff.mp h
  have hopen : step .between '"' = some ([], .inString []) := rfl
  have hclose : step (.inString pieces) '"' = some ([.string (textOf pieces)], .between) := rfl
  simp only [List.cons_append, List.append_assoc]
  rw [lexFrom_cons hopen, lexFrom_body hbody, List.reverse_reverse, List.append_nil]
  exact lexFrom_cons hclose

end strings

section quoting

theorem hexDigitValue?_hexDigit {n : Nat} (h : n < 16) : hexDigitValue? (hexDigit n) = some n := by
  revert n
  decide

/-- Below U+0020 there are no halves of surrogate pairs. -/
theorem ofUnit_toNat {c : Char} (h : c.toNat < 0x20) : Piece.ofUnit c.toNat = .char c := by
  have hhigh : ¬ 0xD800 ≤ c.toNat := by omega
  have hlow : ¬ 0xDC00 ≤ c.toNat := by omega
  simp [Piece.ofUnit, hhigh, hlow, Char.ofNat_toNat]

theorem pieceText_hexEscape {c : Char} (h : c.toNat < 0x20) :
    PieceText (.char c)
      ['\\', 'u', '0', '0', hexDigit (c.toNat / 16), hexDigit (c.toNat % 16)] := by
  have hzero : hexDigitValue? '0' = some 0 := rfl
  have hzeros : HexText ['0', '0'] 0 := (HexText.nil.concat hzero).concat hzero
  have hfirst : hexDigitValue? (hexDigit (c.toNat / 16)) = some (c.toNat / 16) :=
    hexDigitValue?_hexDigit (by omega)
  have hsecond : hexDigitValue? (hexDigit (c.toNat % 16)) = some (c.toNat % 16) :=
    hexDigitValue?_hexDigit (by omega)
  have hvalue : 16 * (16 * 0 + c.toNat / 16) + c.toNat % 16 = c.toNat := by omega
  have hunit := PieceText.unit ((hzeros.concat hfirst).concat hsecond) rfl
  rwa [hvalue, ofUnit_toNat h] at hunit

/-- However a character is escaped, the escape stands for it. -/
theorem pieceText_escape (c : Char) : PieceText (.char c) (escape c) := by
  unfold escape
  split
  iterate 7 exact .escape rfl
  next hquote hbackslash _ _ _ _ _ =>
    split
    next hcontrol => exact pieceText_hexEscape hcontrol
    next hplain => exact .plain hquote hbackslash (Nat.not_lt.mp hplain)

theorem body_flatMap_escape (s : List Char) : Body (s.map .char) (s.flatMap escape) := by
  induction s with
  | nil => exact .nil
  | cons c s ih => exact .cons (pieceText_escape c) ih

theorem makes_map_char (s : List Char) : Makes (s.map .char) s := by
  induction s with
  | nil => exact .nil
  | cons c s ih => exact .char c ih

theorem written_quote (s : String) : Written (.string (some s)) (quote s.toList) :=
  .string (body_flatMap_escape s.toList) (makes_map_char s.toList)

end quoting

section numbers

variable {cs : List Char}

theorem isNumberChar_of_isDigit {c : Char} (h : c.isDigit) : isNumberChar c := by
  simp [isNumberChar, h]

theorem isNumberChar_of_isDigits (h : isDigits cs) : ∀ c ∈ cs, isNumberChar c := by
  simp only [isDigits, Bool.and_eq_true, List.all_eq_true] at h
  exact fun c hc => isNumberChar_of_isDigit (h.2 c hc)

theorem isNumberChar_of_isExponent (h : isExponent cs) : ∀ c ∈ cs, isNumberChar c := by
  have hletter {e : Char} (he : (e == 'e' || e == 'E') = true) : isNumberChar e := by
    simp only [Bool.or_eq_true, beq_iff_eq] at he
    rcases he with rfl | rfl <;> rfl
  have hsigned {e sign : Char} {digits : List Char} (hsign : isNumberChar sign)
      (h : ((e == 'e' || e == 'E') && isDigits digits) = true) :
      ∀ c ∈ e :: sign :: digits, isNumberChar c := by
    simp only [Bool.and_eq_true] at h
    rw [List.forall_mem_cons, List.forall_mem_cons]
    exact ⟨hletter h.1, hsign, isNumberChar_of_isDigits h.2⟩
  unfold isExponent at h
  split at h
  next => simp
  next => exact hsigned rfl h
  next => exact hsigned rfl h
  next =>
    simp only [Bool.and_eq_true] at h
    exact List.forall_mem_cons.mpr ⟨hletter h.1, isNumberChar_of_isDigits h.2⟩

theorem isNumberChar_of_isFraction (h : isFraction cs) : ∀ c ∈ cs, isNumberChar c := by
  unfold isFraction at h
  split at h
  next r =>
    simp only [Bool.and_eq_true] at h
    rw [List.forall_mem_cons, ← List.takeWhile_append_dropWhile (p := Char.isDigit) (l := r)]
    refine ⟨rfl, List.forall_mem_append.mpr ⟨?_, ?_⟩⟩
    · exact isNumberChar_of_isDigits h.1
    · exact isNumberChar_of_isExponent h.2
  next => exact isNumberChar_of_isExponent h

/-- A number without a sign begins with a digit. -/
theorem exists_cons_of_isUnsigned (h : isUnsigned cs) :
    ∃ c r, cs = c :: r ∧ c.isDigit ∧ ∀ d ∈ r, isNumberChar d := by
  unfold isUnsigned at h
  split at h
  next r => exact ⟨'0', r, rfl, rfl, isNumberChar_of_isFraction h⟩
  next c r _ =>
    simp only [Bool.and_eq_true] at h
    refine ⟨c, r, rfl, h.1, ?_⟩
    rw [← List.takeWhile_append_dropWhile (p := Char.isDigit) (l := r), List.forall_mem_append]
    refine ⟨fun d hd => ?_, isNumberChar_of_isFraction h.2⟩
    exact isNumberChar_of_isDigit (List.all_eq_true.mp List.all_takeWhile d hd)
  next => contradiction

theorem exists_cons_of_isNumber (h : isNumber cs) :
    ∃ c r, cs = c :: r ∧ (c.isDigit || c == '-') ∧ ∀ d ∈ r, isNumberChar d := by
  unfold isNumber at h
  split at h
  next r =>
    obtain ⟨c, r, rfl, hc, hr⟩ := exists_cons_of_isUnsigned h
    exact ⟨'-', c :: r, rfl, rfl, List.forall_mem_cons.mpr ⟨isNumberChar_of_isDigit hc, hr⟩⟩
  next =>
    obtain ⟨c, r, rfl, hc, hr⟩ := exists_cons_of_isUnsigned h
    exact ⟨c, r, rfl, by simp [hc], hr⟩

/-- Decimals have no zero in front, but for zero itself. -/
theorem exists_toDigits_eq_cons {n : Nat} (h : n ≠ 0) :
    ∃ c r, Nat.toDigits 10 n = c :: r ∧ c ≠ '0' := by
  induction n using Nat.strong_induction_on with
  | _ n ih =>
    by_cases hn : n < 10
    · exact ⟨n.digitChar, [], Nat.toDigits_of_lt_base hn, by simpa using h⟩
    · obtain ⟨c, r, hdigits, hc⟩ := ih (n / 10) (by omega) (by omega)
      refine ⟨c, r ++ [(n % 10).digitChar], ?_, hc⟩
      rw [Nat.toDigits_of_base_le (by decide) (by omega), hdigits, List.cons_append]

theorem isNumber_of_isDigit {c : Char} {r : List Char} (hdigits : ∀ d ∈ c :: r, d.isDigit)
    (hc : c ≠ '0') : isNumber (c :: r) := by
  rw [List.forall_mem_cons] at hdigits
  have hsign : c ≠ '-' := by
    rintro rfl
    exact absurd hdigits.1 (by decide)
  have hfraction : r.dropWhile Char.isDigit = [] := List.dropWhile_eq_nil_iff.mpr hdigits.2
  have hunsigned : isUnsigned (c :: r) := by
    simp [isUnsigned, hdigits.1, hfraction, isFraction, isExponent]
  simpa [isNumber, hsign] using hunsigned

theorem isNumber_repr (n : Nat) : isNumber n.repr.toList := by
  rw [Nat.toList_repr]
  by_cases hn : n = 0
  · rw [hn, Nat.toDigits_zero]
    rfl
  · obtain ⟨c, r, hdigits, hc⟩ := exists_toDigits_eq_cons hn
    rw [hdigits]
    refine isNumber_of_isDigit (fun d hd => ?_) hc
    rw [← hdigits] at hd
    exact Nat.isDigit_of_mem_toDigits (by decide) (by decide) hd

end numbers

def isWritable : JsonToken → Bool
  | number n => isNumber n.toList
  | string s => s.isSome
  | _ => true

/-- Words and numbers end only where something else begins. -/
def isOpenEnded : JsonToken → Bool
  | null | bool _ | number _ => true
  | _ => false

def Apart (t u : JsonToken) : Prop := t.isOpenEnded → u.isOpenEnded = false

/-- No word and no number goes on with what follows. -/
def Delimited (rest : List Char) : Prop :=
  ∀ c ∈ rest.head?, c.isLower = false ∧ isNumberChar c = false

section tokens

variable {done : List JsonToken} {t : JsonToken} {rest : List Char}

/-- A word ends with the text, or before the next character. -/
theorem lexFrom_inWord {letters : List Char} (h : ofWord? letters.reverse = some t)
    (hrest : Delimited rest) :
    lexFrom done (.inWord letters) rest = lexFrom (t :: done) .between rest := by
  cases rest with
  | nil => simp [lexFrom, finish?, h]
  | cons c rest =>
    have hc : c.isLower = false := (hrest c rfl).1
    simp only [lexFrom, step, hc, h, endWith?, Bool.false_eq_true, if_false]
    cases begin? c <;> simp

theorem lexFrom_inWord_append {letters cs : List Char} (h : ∀ c ∈ cs, c.isLower) :
    lexFrom done (.inWord letters) (cs ++ rest) =
      lexFrom done (.inWord (cs.reverse ++ letters)) rest := by
  induction cs generalizing letters with
  | nil => rfl
  | cons c cs ih =>
    rw [List.forall_mem_cons] at h
    have hstep : step (.inWord letters) c = some ([], .inWord (c :: letters)) := by
      simp [step, h.1]
    rw [List.cons_append, lexFrom_cons hstep, List.reverse_nil, List.nil_append, ih h.2]
    simp

theorem lexFrom_word {c : Char} {cs : List Char} (hfirst : begin? c = some ([], .inWord [c]))
    (hlower : cs.all Char.isLower) (h : ofWord? (c :: cs) = some t) (hrest : Delimited rest) :
    lexFrom done .between (c :: cs ++ rest) = lexFrom (t :: done) .between rest := by
  have hstep : step .between c = some ([], .inWord [c]) := hfirst
  have htoken : ofWord? (cs.reverse ++ [c]).reverse = some t := by simpa using h
  rw [List.cons_append, lexFrom_cons hstep, lexFrom_inWord_append (List.all_eq_true.mp hlower),
    lexFrom_inWord htoken hrest]
  rfl

theorem lexFrom_inNumber {chars : List Char} (h : ofNumber? chars.reverse = some t)
    (hrest : Delimited rest) :
    lexFrom done (.inNumber chars) rest = lexFrom (t :: done) .between rest := by
  cases rest with
  | nil => simp [lexFrom, finish?, h]
  | cons c rest =>
    have hc : isNumberChar c = false := (hrest c rfl).2
    simp only [lexFrom, step, hc, h, endWith?, Bool.false_eq_true, if_false]
    cases begin? c <;> simp

theorem lexFrom_inNumber_append {chars cs : List Char} (h : ∀ c ∈ cs, isNumberChar c) :
    lexFrom done (.inNumber chars) (cs ++ rest) =
      lexFrom done (.inNumber (cs.reverse ++ chars)) rest := by
  induction cs generalizing chars with
  | nil => rfl
  | cons c cs ih =>
    rw [List.forall_mem_cons] at h
    have hstep : step (.inNumber chars) c = some ([], .inNumber (c :: chars)) := by
      simp [step, h.1]
    rw [List.cons_append, lexFrom_cons hstep, List.reverse_nil, List.nil_append, ih h.2]
    simp

theorem isBlankChar_cases {c : Char} (h : isBlankChar c) :
    c = ' ' ∨ c = '\t' ∨ c = '\n' ∨ c = '\r' := by
  simpa [isBlankChar, or_assoc] using h

theorem begin?_of_number {c : Char} (h : c.isDigit || c == '-') :
    begin? c = some ([], .inNumber [c]) := by
  have hblank : isBlankChar c = false := by
    rw [Bool.eq_false_iff]
    intro hblank
    rcases isBlankChar_cases hblank with rfl | rfl | rfl | rfl <;> contradiction
  unfold begin?
  split
  iterate 7 contradiction
  next => simp only [hblank, h, Bool.false_eq_true, if_false, if_true]

theorem lexFrom_number {n : String} (h : isNumber n.toList) (hrest : Delimited rest) :
    lexFrom done .between (n.toList ++ rest) = lexFrom (.number n :: done) .between rest := by
  obtain ⟨c, r, hn, hc, hr⟩ := exists_cons_of_isNumber h
  have hstep : step .between c = some ([], .inNumber [c]) := begin?_of_number hc
  have htoken : ofNumber? (r.reverse ++ [c]).reverse = some (.number n) := by
    simp [ofNumber?, ← hn, h]
  rw [hn, List.cons_append, lexFrom_cons hstep, lexFrom_inNumber_append hr,
    lexFrom_inNumber htoken hrest]
  rfl

theorem lexFrom_sign {c : Char} (hspell : t.spell = [c])
    (hbegin : begin? c = some ([t], .between)) :
    lexFrom done .between (t.spell ++ rest) = lexFrom (t :: done) .between rest := by
  have hstep : step .between c = some ([t], .between) := hbegin
  rw [hspell, List.singleton_append, lexFrom_cons hstep]
  rfl

theorem lexFrom_written {text : List Char} (h : Written t text)
    (hrest : t.isOpenEnded → Delimited rest) :
    lexFrom done .between (text ++ rest) = lexFrom (t :: done) .between rest := by
  cases h with
  | sign h =>
    simp only [List.mem_cons, List.not_mem_nil, or_false] at h
    rcases h with rfl | rfl | rfl | rfl | rfl | rfl <;> exact lexFrom_sign rfl rfl
  | word h =>
    simp only [List.mem_cons, List.not_mem_nil, or_false] at h
    rcases h with rfl | rfl | rfl
    · rw [spell_null]
      exact lexFrom_word rfl rfl rfl (hrest rfl)
    · rw [spell_true]
      exact lexFrom_word rfl rfl rfl (hrest rfl)
    · rw [spell_false]
      exact lexFrom_word rfl rfl rfl (hrest rfl)
  | number h => exact lexFrom_number h (hrest rfl)
  | string hbody h => exact lexFrom_string (.string hbody h)
  | noText hbody h => exact lexFrom_string (.noText hbody h)

theorem delimited_nil : Delimited [] := by simp [Delimited]

theorem delimited_cons {c : Char} {cs : List Char}
    (h : c.isLower = false ∧ isNumberChar c = false) : Delimited (c :: cs) :=
  fun _ hd => Option.some.inj hd ▸ h

theorem delimited_blank {c : Char} {cs : List Char} (h : isBlankChar c) : Delimited (c :: cs) := by
  rcases isBlankChar_cases h with rfl | rfl | rfl | rfl <;> exact delimited_cons ⟨rfl, rfl⟩

/-- Signs and strings end whatever stands before them. -/
theorem delimited_written {text : List Char} (h : Written t text) (ht : t.isOpenEnded = false) :
    Delimited (text ++ rest) := by
  cases h with
  | sign h =>
    simp only [List.mem_cons, List.not_mem_nil, or_false] at h
    rcases h with rfl | rfl | rfl | rfl | rfl | rfl <;> exact delimited_cons ⟨rfl, rfl⟩
  | word h =>
    simp only [List.mem_cons, List.not_mem_nil, or_false] at h
    rcases h with rfl | rfl | rfl <;> contradiction
  | number h => contradiction
  | string _ _ | noText _ _ => exact delimited_cons ⟨rfl, rfl⟩

theorem delimited_lexed {ts : List JsonToken} {cs : List Char} (h : Lexed ts cs)
    (hts : ∀ t ∈ ts.head?, t.isOpenEnded = false) (hrest : ts = [] → Delimited rest) :
    Delimited (cs ++ rest) := by
  cases h with
  | nil => exact hrest rfl
  | blank hc _ => exact delimited_blank hc
  | token ht _ =>
    rw [List.append_assoc]
    exact delimited_written ht (hts _ rfl)

/-- Tokens that stand apart are read from any text that can be cut into them. -/
theorem lexFrom_lexed {ts : List JsonToken} {cs : List Char} (h : Lexed ts cs)
    (hapart : ts.IsChain Apart) (hrest : ∀ t ∈ ts.getLast?, t.isOpenEnded → Delimited rest) :
    lexFrom done .between (cs ++ rest) = lexFrom (ts.reverse ++ done) .between rest := by
  induction h generalizing done with
  | nil => rfl
  | @blank ts c cs hc _ ih =>
    have hstep : step .between c = some ([], .between) := by
      rcases isBlankChar_cases hc with rfl | rfl | rfl | rfl <;> rfl
    rw [List.cons_append, lexFrom_cons hstep]
    exact ih hapart hrest
  | @token t ts text cs ht h ih =>
    have hnext : t.isOpenEnded → Delimited (cs ++ rest) := by
      intro hopen
      refine delimited_lexed h (fun u hu => ?_) ?_
      · exact (List.isChain_cons.mp hapart).1 u hu hopen
      · rintro rfl
        exact hrest t rfl hopen
    rw [List.append_assoc, lexFrom_written ht hnext,
      ih hapart.tail fun u hu => hrest u (List.mem_getLast?_cons hu)]
    simp

end tokens

section spelling

theorem written_spell {t : JsonToken} (h : t.isWritable) : Written t t.spell := by
  cases t with
  | number n => exact .number h
  | string s =>
    cases s with
    | none => contradiction
    | some s => exact written_quote s
  | null => exact .word (by simp)
  | bool b => cases b <;> exact .word (by simp)
  | openArray | closeArray | openObject | closeObject | comma | colon => exact .sign (by simp)

theorem lexed_flatMap_spell {ts : List JsonToken} (h : ∀ t ∈ ts, t.isWritable) :
    Lexed ts (ts.flatMap spell) := by
  induction ts with
  | nil => exact .nil
  | cons t ts ih =>
    rw [List.forall_mem_cons] at h
    exact .token (written_spell h.1) (ih h.2)

end spelling

section controls

theorem le_toNat_of_isNumberChar {c : Char} (h : isNumberChar c) : 0x20 ≤ c.toNat := by
  simp only [isNumberChar, Bool.or_eq_true, beq_iff_eq] at h
  rcases h with ((((h | rfl) | rfl) | rfl) | rfl) | rfl
  · have hzero : '0'.toNat ≤ c.toNat := by
      simp only [Char.isDigit, Bool.and_eq_true, decide_eq_true_eq] at h
      exact h.1
    exact le_trans (by decide) hzero
  all_goals decide

theorem le_toNat_hexDigit {n : Nat} (h : n < 16) : 0x20 ≤ (hexDigit n).toNat := by
  revert n
  decide

theorem le_toNat_of_mem_escape {c d : Char} (h : d ∈ escape c) : 0x20 ≤ d.toNat := by
  revert d
  unfold escape
  split
  iterate 7 simp
  split
  next hcontrol =>
    have hfirst := le_toNat_hexDigit (n := c.toNat / 16) (by omega)
    have hsecond := le_toNat_hexDigit (n := c.toNat % 16) (by omega)
    simp [hfirst, hsecond]
  next hplain => simpa using hplain

/-- No spelling holds a control character, whatever the text that is spelled. -/
theorem le_toNat_of_mem_spell {t : JsonToken} (h : t.isWritable) :
    ∀ c ∈ t.spell, 0x20 ≤ c.toNat := by
  cases t with
  | number n =>
    obtain ⟨c, r, hn, hc, hr⟩ := exists_cons_of_isNumber h
    have hfirst : isNumberChar c := by
      simp only [Bool.or_eq_true, beq_iff_eq] at hc
      simp [isNumberChar, hc]
    rw [spell_number, hn, List.forall_mem_cons]
    exact ⟨le_toNat_of_isNumberChar hfirst, fun d hd => le_toNat_of_isNumberChar (hr d hd)⟩
  | string s =>
    cases s with
    | none => contradiction
    | some s =>
      intro c hc
      simp only [spell_string, quote, List.cons_append, List.mem_cons, List.mem_append,
        List.mem_flatMap, List.not_mem_nil, or_false] at hc
      rcases hc with rfl | ⟨d, -, hd⟩ | rfl
      · decide
      · exact le_toNat_of_mem_escape hd
      · decide
  | null => simp
  | bool b => cases b <;> simp
  | openArray | closeArray | openObject | closeObject | comma | colon =>
    exact List.forall_mem_singleton.mpr (by decide)

end controls

end NamespaceAccess.JsonToken
