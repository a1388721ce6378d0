import NamespaceAccess.Proofs.Spelling

/-!
What the lexer reads is there: the text can be cut into the tokens that it finds. At every character
the text so far is cut into the whole tokens and the beginning of one more.
-/
namespace NamespaceAccess.JsonToken

inductive Begun : State → List Char → Prop where
  | between : Begun .between []
  | word (letters : List Char) : Begun (.inWord letters) letters.reverse
  | number (chars : List Char) : Begun (.inNumber chars) chars.reverse
  | string {pieces : List Piece} {body : List Char} (h : Body pieces.reverse body) :
    Begun (.inString pieces) ('"' :: body)
  | escape {pieces : List Piece} {body : List Char} (h : Body pieces.reverse body) :
    Begun (.inEscape pieces) ('"' :: body ++ ['\\'])
  | unit {pieces : List Piece} {body digits : List Char} {n : Nat} (h : Body pieces.reverse body)
    (hdigits : HexText digits n) (hlength : digits.length ≤ 3) :
    Begun (.inUnit pieces digits.length n) ('"' :: body ++ '\\' :: 'u' :: digits)

inductive Cut : List JsonToken → State → List Char → Prop where
  | mk {ts : List JsonToken} {state : State} {front back : List Char} (hfront : Lexed ts front)
    (hback : Begun state back) : Cut ts state (front ++ back)

section cuts

variable {ts : List JsonToken} {state : State} {cs : List Char}

theorem Begun.cut (h : Begun state cs) : Cut [] state cs := .mk .nil h

theorem Lexed.cut (h : Lexed ts cs) : Cut ts .between cs := by
  simpa using Cut.mk h .between

theorem Cut.cons {t : JsonToken} {text : List Char} (ht : Written t text) (h : Cut ts state cs) :
    Cut (t :: ts) state (text ++ cs) := by
  cases h with
  | mk hfront hback =>
    rw [← List.append_assoc]
    exact .mk (.token ht hfront) hback

end cuts

section step

variable {state next : State} {ts : List JsonToken} {t : JsonToken} {c : Char} {pre : List Char}

theorem cut_begin? (h : begin? c = some (ts, next)) : Cut ts next [c] := by
  have hsign {t : JsonToken} (hspell : t.spell = [c]) (ht : t ∈ [openArray, closeArray,
      openObject, closeObject, comma, colon]) : Cut [t] .between [c] :=
    hspell ▸ (Lexed.singleton (.sign ht)).cut
  unfold begin? at h
  split at h
  iterate 6
    cases h
    exact hsign rfl (by simp)
  · cases h
    have hbody : Body ([] : List Piece).reverse [] := .nil
    exact (Begun.string hbody).cut
  · split at h
    next hblank =>
      cases h
      exact (Lexed.blank hblank .nil).cut
    split at h
    next =>
      cases h
      exact (Begun.number [c]).cut
    split at h
    next =>
      cases h
      exact (Begun.word [c]).cut
    next => contradiction

theorem written_of_ofWord? {letters : List Char} (h : ofWord? letters = some t) :
    Written t letters := by
  unfold ofWord? at h
  split at h
  · cases h
    exact spell_null ▸ .word (by simp)
  · cases h
    exact spell_true ▸ .word (by simp)
  · cases h
    exact spell_false ▸ .word (by simp)
  · contradiction

theorem written_of_ofNumber? {chars : List Char} (h : ofNumber? chars = some t) :
    Written t chars := by
  unfold ofNumber? at h
  split at h
  next hnumber =>
    cases h
    have hwritten : Written (.number (String.ofList chars)) (String.ofList chars).toList :=
      .number (by rwa [String.toList_ofList])
    rwa [String.toList_ofList] at hwritten
  next => contradiction

theorem cut_endWith? {token : Option JsonToken} (htoken : ∀ t, token = some t → Written t pre)
    (h : endWith? token c = some (ts, next)) : Cut ts next (pre ++ [c]) := by
  cases token with
  | none => contradiction
  | some t =>
    obtain ⟨⟨us, state⟩, hbegin, heq⟩ := Option.bind_eq_some_iff.mp h
    cases heq
    exact (cut_begin? hbegin).cons (htoken t rfl)

theorem cut_inString {pieces : List Piece} {body : List Char} (hbody : Body pieces.reverse body)
    (h : step (.inString pieces) c = some (ts, next)) : Cut ts next ('"' :: body ++ [c]) := by
  simp only [step] at h
  split at h
  next hquote =>
    cases h
    subst hquote
    exact (Lexed.singleton (written_string_iff.mpr ⟨pieces, body, hbody, rfl, rfl⟩)).cut
  split at h
  next hbackslash =>
    cases h
    subst hbackslash
    exact (Begun.escape hbody).cut
  split at h
  next => contradiction
  next hquote hbackslash hcontrol =>
    cases h
    have hpiece : PieceText (.char c) [c] := .plain hquote hbackslash (Nat.not_lt.mp hcontrol)
    have hmore : Body (Piece.char c :: pieces).reverse (body ++ [c]) := by
      rw [List.reverse_cons]
      exact hbody.concat hpiece
    exact (Begun.string hmore).cut

theorem cut_inEscape {pieces : List Piece} {body : List Char} (hbody : Body pieces.reverse body)
    (h : step (.inEscape pieces) c = some (ts, next)) :
    Cut ts next ('"' :: body ++ ['\\'] ++ [c]) := by
  simp only [step] at h
  split at h
  next hu =>
    cases h
    subst hu
    rw [List.append_assoc]
    exact (Begun.unit hbody .nil (by decide)).cut
  next =>
    obtain ⟨d, hd, heq⟩ := Option.map_eq_some_iff.mp h
    cases heq
    have hmore : Body (Piece.char d :: pieces).reverse (body ++ ['\\', c]) := by
      rw [List.reverse_cons]
      exact hbody.concat (.escape hd)
    rw [List.append_assoc]
    exact (Begun.string hmore).cut

theorem cut_inUnit {pieces : List Piece} {body digits : List Char} {n : Nat}
    (hbody : Body pieces.reverse body) (hdigits : HexText digits n) (hlength : digits.length ≤ 3)
    (h : step (.inUnit pieces digits.length n) c = some (ts, next)) :
    Cut ts next ('"' :: body ++ '\\' :: 'u' :: digits ++ [c]) := by
  obtain ⟨m, hm, h⟩ := Option.bind_eq_some_iff.mp h
  have hmore : HexText (digits ++ [c]) (16 * n + m) := hdigits.concat hm
  have hcount : (digits ++ [c]).length = digits.length + 1 := by simp
  split at h
  next hlt =>
    cases h
    have hunit := (Begun.unit hbody hmore (by omega)).cut
    rw [hcount] at hunit
    simpa using hunit
  next hfull =>
    cases h
    have hpiece : PieceText (Piece.ofUnit (16 * n + m)) ('\\' :: 'u' :: (digits ++ [c])) :=
      .unit hmore (by omega)
    have hpieces : Body (Piece.ofUnit (16 * n + m) :: pieces).reverse
        (body ++ '\\' :: 'u' :: (digits ++ [c])) := by
      rw [List.reverse_cons]
      exact hbody.concat hpiece
    simpa using (Begun.string hpieces).cut

/-- One more character leaves the text cut. -/
theorem cut_step (hpre : Begun state pre) (h : step state c = some (ts, next)) :
    Cut ts next (pre ++ [c]) := by
  cases hpre with
  | between => exact cut_begin? h
  | word letters =>
    simp only [step] at h
    split at h
    next =>
      cases h
      simpa using (Begun.word (c :: letters)).cut
    next => exact cut_endWith? (fun _ => written_of_ofWord?) h
  | number chars =>
    simp only [step] at h
    split at h
    next =>
      cases h
      simpa using (Begun.number (c :: chars)).cut
    next => exact cut_endWith? (fun _ => written_of_ofNumber?) h
  | string hbody => exact cut_inString hbody h
  | escape hbody => exact cut_inEscape hbody h
  | unit hbody hdigits hlength => exact cut_inUnit hbody hdigits hlength h

end step

theorem lexed_of_finish? {state : State} {pre : List Char} {ts : List JsonToken}
    (hpre : Begun state pre) (h : finish? state = some ts) : Lexed ts pre := by
  cases hpre with
  | between =>
    cases h
    exact .nil
  | word letters =>
    obtain ⟨t, ht, rfl⟩ := Option.map_eq_some_iff.mp h
    exact .singleton (written_of_ofWord? ht)
  | number chars =>
    obtain ⟨t, ht, rfl⟩ := Option.map_eq_some_iff.mp h
    exact .singleton (written_of_ofNumber? ht)
  | string _ | escape _ | unit _ _ _ => contradiction

/-- The tokens that are read from here on are those of the text from here on. -/
theorem exists_lexed_of_lexFrom {done all : List JsonToken} {state : State} {pre cs : List Char}
    (hpre : Begun state pre) (h : lexFrom done state cs = some all) :
    ∃ ts, all = done.reverse ++ ts ∧ Lexed ts (pre ++ cs) := by
  induction cs generalizing done state pre with
  | nil =>
    obtain ⟨ts, hts, rfl⟩ := Option.map_eq_some_iff.mp h
    refine ⟨ts, rfl, ?_⟩
    rw [List.append_nil]
    exact lexed_of_finish? hpre hts
  | cons c cs ih =>
    cases hstep : step state c with
    | none => simp [lexFrom, hstep] at h
    | some read =>
      obtain ⟨ts, next⟩ := read
      rw [lexFrom_cons hstep] at h
      have hcut : Cut ts next (pre ++ [c]) := cut_step hpre hstep
      generalize htext : pre ++ [c] = text at hcut
      obtain ⟨hfront, hback⟩ := hcut
      obtain ⟨us, rfl, hus⟩ := ih hback h
      refine ⟨ts ++ us, by simp, ?_⟩
      rw [List.append_cons, htext, List.append_assoc]
      exact hfront.append hus

theorem lexed_of_lex {text : String} {ts : List JsonToken} (h : lex text = some ts) :
    Lexed ts text.toList := by
  obtain ⟨ts, rfl, hts⟩ := exists_lexed_of_lexFrom .between h
  exact hts

end NamespaceAccess.JsonToken
