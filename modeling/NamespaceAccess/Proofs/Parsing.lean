import NamespaceAccess.Proofs.Lexing
import NamespaceAccess.Proofs.Reading

/-!
The reader accepts the spellings of a value and no other text. What it has read so far can be told
from where it stands: the containers still open, each with its contents so far.
-/
namespace NamespaceAccess.Json

theorem itemTokens_concat (items : List Json) (v : Json) :
    itemTokens (items ++ [v]) = items.flatMap (fun w => w.tokens ++ [.comma]) ++ v.tokens := by
  induction items with
  | nil => simp [itemTokens]
  | cons w items ih =>
    obtain ⟨u, r, hr⟩ : ∃ u r, items ++ [v] = u :: r := List.exists_cons_of_ne_nil (by simp)
    rw [List.cons_append, hr, itemTokens, ← hr, ih]
    simp

theorem memberTokens_concat (members : List (JsonText × Json)) (m : JsonText × Json) :
    memberTokens (members ++ [m]) =
      members.flatMap (fun n => memberTokens [n] ++ [.comma]) ++ memberTokens [m] := by
  induction members with
  | nil => simp
  | cons n members ih =>
    obtain ⟨u, r, hr⟩ : ∃ u r, members ++ [m] = u :: r := List.exists_cons_of_ne_nil (by simp)
    have hcons : memberTokens (n :: (members ++ [m])) =
        memberTokens [n] ++ .comma :: memberTokens (members ++ [m]) := by
      rw [hr]
      rfl
    rw [List.cons_append, hcons, ih]
    simp

/-- What has been read of a container whose next value has not begun. -/
def Frame.tokens : Frame → List JsonToken
  | array before => .openArray :: before.reverse.flatMap fun v => v.tokens ++ [.comma]
  | object before key =>
    .openObject :: before.reverse.flatMap (fun m => memberTokens [m] ++ [.comma]) ++
      [.string key, .colon]

/-- The outermost container is the last of the stack. -/
def stackTokens (stack : List Frame) : List JsonToken := stack.reverse.flatMap Frame.tokens

@[simp] theorem stackTokens_cons (f : Frame) (stack : List Frame) :
    stackTokens (f :: stack) = stackTokens stack ++ f.tokens := by
  simp [stackTokens]

namespace Progress

def tokens : Progress → List JsonToken
  | expectValue stack => stackTokens stack
  | openedArray stack => stackTokens stack ++ [.openArray]
  | openedObject stack => stackTokens stack ++ [.openObject]
  | expectKey before stack =>
    stackTokens stack ++
      .openObject :: before.reverse.flatMap (fun m => memberTokens [m] ++ [.comma])
  | expectColon before key stack =>
    stackTokens stack ++
      .openObject :: before.reverse.flatMap (fun m => memberTokens [m] ++ [.comma]) ++
        [.string key]
  | readValue v stack => stackTokens stack ++ v.tokens

variable {p q : Progress} {t : JsonToken} {ts : List JsonToken}

theorem tokens_of_beginValue? {stack : List Frame} (h : beginValue? stack t = some q) :
    q.tokens = stackTokens stack ++ [t] := by
  cases t with
  | null | bool b | number n | string s | openArray | openObject =>
    cases h
    rfl
  | closeArray | closeObject | comma | colon => contradiction

theorem tokens_of_step (h : p.step t = some q) : q.tokens = p.tokens ++ [t] := by
  unfold step at h
  split at h
  next stack t => exact tokens_of_beginValue? h
  next stack =>
    cases h
    simp [tokens, Json.tokens, itemTokens]
  next stack t _ =>
    rw [tokens_of_beginValue? h]
    simp [tokens, Frame.tokens]
  next stack =>
    cases h
    simp [tokens, Json.tokens, memberTokens]
  next stack key =>
    cases h
    simp [tokens]
  next before stack key =>
    cases h
    simp [tokens]
  next before key stack =>
    cases h
    simp [tokens, Frame.tokens]
  next v before stack =>
    cases h
    simp [tokens, Frame.tokens]
  next v before stack =>
    cases h
    simp [tokens, Frame.tokens, Json.tokens, itemTokens_concat]
  next v before key stack =>
    cases h
    simp [tokens, Frame.tokens, memberTokens]
  next v before key stack =>
    cases h
    simp [tokens, Frame.tokens, Json.tokens, memberTokens_concat, memberTokens]
  next => contradiction

theorem tokens_of_run (h : p.run ts = some q) : q.tokens = p.tokens ++ ts := by
  induction ts generalizing p with
  | nil =>
    cases h
    exact (List.append_nil _).symm
  | cons t ts ih =>
    cases hstep : p.step t with
    | none => simp [run, hstep] at h
    | some next =>
      simp only [run, hstep] at h
      rw [ih h, tokens_of_step hstep, ← List.append_cons]

end Progress

theorem ofTokens?_eq_some_iff {ts : List JsonToken} {v : Json} :
    ofTokens? ts = some v ↔ ts = v.tokens := by
  constructor
  · intro h
    obtain ⟨p, hrun, hvalue⟩ := Option.bind_eq_some_iff.mp h
    have htokens : p.tokens = ts := Progress.tokens_of_run hrun
    unfold Progress.value? at hvalue
    split at hvalue
    next w =>
      cases hvalue
      exact htokens.symm
    next => contradiction
  · rintro rfl
    exact ofTokens?_tokens v

/-- A text is read as a value exactly where it spells that value. -/
theorem parse?_eq_some_iff {text : String} {v : Json} : parse? text = some v ↔ v.Spells text := by
  refine ⟨fun h => ?_, parse?_of_spells⟩
  obtain ⟨ts, hlex, hts⟩ := Option.bind_eq_some_iff.mp h
  rw [ofTokens?_eq_some_iff] at hts
  rw [Spells, ← hts]
  exact JsonToken.lexed_of_lex hlex

section trailing

variable {v : Json} {text after : String}

theorem parse?_append_of_blank (h : v.Spells text)
    (hafter : ∀ c ∈ after.toList, JsonToken.isBlankChar c) : parse? (text ++ after) = some v := by
  apply parse?_of_spells
  rw [Spells, String.toList_append]
  simpa using h.append (JsonToken.lexed_nil_iff.mpr hafter)

/-- No token may follow a value. -/
theorem ofTokens?_append_cons (v : Json) (t : JsonToken) (ts : List JsonToken) :
    ofTokens? (v.tokens ++ t :: ts) = none := by
  rw [ofTokens?, Progress.readsBack]
  cases t <;> rfl

/-- After an object only blanks may follow. -/
theorem parse?_append_eq_none {members : List (JsonText × Json)}
    (h : (object members).Spells text) (hafter : ¬ ∀ c ∈ after.toList, JsonToken.isBlankChar c) :
    parse? (text ++ after) = none := by
  rw [Option.eq_none_iff_forall_ne_some]
  intro w hw
  obtain ⟨ts, hlex, hts⟩ := Option.bind_eq_some_iff.mp hw
  have hobject : JsonToken.lexFrom ((object members).tokens.reverse ++ []) .between after.toList =
      some ts := by
    rw [← hlex, JsonToken.lex, String.toList_append]
    refine (lexFrom_tokens h fun t ht hopen => ?_).symm
    rw [tokens, List.getLast?_concat, Option.mem_some_iff] at ht
    exact absurd hopen (by simp [← ht, JsonToken.isOpenEnded])
  obtain ⟨us, rfl, hus⟩ := JsonToken.exists_lexed_of_lexFrom .between hobject
  cases us with
  | nil => exact hafter (JsonToken.lexed_nil_iff.mp hus)
  | cons u us =>
    rw [List.append_nil, List.reverse_reverse, ofTokens?_append_cons] at hts
    contradiction

end trailing

theorem Spells.unique {v w : Json} {text : String} (hv : v.Spells text) (hw : w.Spells text) :
    v = w := by
  rw [← parse?_eq_some_iff] at hv hw
  exact Option.some.inj (hv.symm.trans hw)

end NamespaceAccess.Json
