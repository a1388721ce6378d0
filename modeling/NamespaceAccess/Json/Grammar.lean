import NamespaceAccess.Json.Lexer

/-!
The grammar of JSON texts. A value is spelled by the spellings of its tokens, one after the other,
with blanks anywhere between them.
-/
namespace NamespaceAccess

namespace JsonToken

inductive HexText : List Char → Nat → Prop where
  | nil : HexText [] 0
  | concat {digits : List Char} {n m : Nat} {c : Char} (h : HexText digits n)
    (hc : hexDigitValue? c = some m) : HexText (digits ++ [c]) (16 * n + m)

/-- A piece of a string is a character that may stand for itself, or an escape. -/
inductive PieceText : Piece → List Char → Prop where
  | plain {c : Char} (hquote : c ≠ '"') (hbackslash : c ≠ '\\') (hcontrol : 0x20 ≤ c.toNat) :
    PieceText (.char c) [c]
  | escape {e c : Char} (h : unescape? e = some c) : PieceText (.char c) ['\\', e]
  | unit {digits : List Char} {n : Nat} (h : HexText digits n) (hlength : digits.length = 4) :
    PieceText (.ofUnit n) ('\\' :: 'u' :: digits)

/-- What stands between the quotes of a string, cut into its pieces. -/
inductive Body : List Piece → List Char → Prop where
  | nil : Body [] []
  | cons {p : Piece} {ps : List Piece} {text rest : List Char} (hp : PieceText p text)
    (h : Body ps rest) : Body (p :: ps) (text ++ rest)

/-- The characters that the pieces make. The two halves of a surrogate pair make one, and a half
without the other makes none. -/
inductive Makes : List Piece → List Char → Prop where
  | nil : Makes [] []
  | char {ps : List Piece} {cs : List Char} (c : Char) (h : Makes ps cs) :
    Makes (.char c :: ps) (c :: cs)
  | pair {ps : List Piece} {cs : List Char} (high low : Nat) (h : Makes ps cs) :
    Makes (.high high :: .low low :: ps)
      (Char.ofNat (0x10000 + (high - 0xD800) * 0x400 + (low - 0xDC00)) :: cs)

/-- The spellings of a token. Only strings have more than one. -/
inductive Written : JsonToken → List Char → Prop where
  | sign {t : JsonToken} (h : t ∈ [openArray, closeArray, openObject, closeObject, comma, colon]) :
    Written t t.spell
  | word {t : JsonToken} (h : t ∈ [null, bool true, bool false]) : Written t t.spell
  | number {n : String} (h : isNumber n.toList) : Written (number n) n.toList
  | string {pieces : List Piece} {body : List Char} {s : String} (hbody : Body pieces body)
    (h : Makes pieces s.toList) : Written (string (some s)) ('"' :: body ++ ['"'])
  | noText {pieces : List Piece} {body : List Char} (hbody : Body pieces body)
    (h : ∀ cs, ¬ Makes pieces cs) : Written (string none) ('"' :: body ++ ['"'])

inductive Lexed : List JsonToken → List Char → Prop where
  | nil : Lexed [] []
  | blank {ts : List JsonToken} {c : Char} {cs : List Char} (hc : isBlankChar c)
    (h : Lexed ts cs) : Lexed ts (c :: cs)
  | token {t : JsonToken} {ts : List JsonToken} {text cs : List Char} (ht : Written t text)
    (h : Lexed ts cs) : Lexed (t :: ts) (text ++ cs)

theorem Body.append {ps qs : List Piece} {cs ds : List Char} (h : Body ps cs) (h' : Body qs ds) :
    Body (ps ++ qs) (cs ++ ds) := by
  induction h with
  | nil => exact h'
  | cons hp _ ih =>
    rw [List.append_assoc]
    exact .cons hp ih

theorem Body.concat {p : Piece} {ps : List Piece} {cs text : List Char} (h : Body ps cs)
    (hp : PieceText p text) : Body (ps ++ [p]) (cs ++ text) := by
  have hlast : Body [p] text := by simpa using Body.cons hp .nil
  exact h.append hlast

theorem Makes.append {ps qs : List Piece} {cs ds : List Char} (h : Makes ps cs)
    (h' : Makes qs ds) : Makes (ps ++ qs) (cs ++ ds) := by
  induction h with
  | nil => exact h'
  | char c _ ih => exact .char c ih
  | pair high low _ ih => exact .pair high low ih

theorem Lexed.append {ts us : List JsonToken} {cs ds : List Char} (h : Lexed ts cs)
    (h' : Lexed us ds) : Lexed (ts ++ us) (cs ++ ds) := by
  induction h with
  | nil => exact h'
  | blank hc _ ih => exact .blank hc ih
  | token ht _ ih =>
    rw [List.append_assoc]
    exact .token ht ih

theorem Lexed.singleton {t : JsonToken} {text : List Char} (h : Written t text) :
    Lexed [t] text := by
  simpa using Lexed.token h .nil

theorem lexed_nil_iff {cs : List Char} : Lexed [] cs ↔ ∀ c ∈ cs, isBlankChar c := by
  constructor
  · intro h
    cases h with
    | nil => simp
    | blank hc h => exact List.forall_mem_cons.mpr ⟨hc, lexed_nil_iff.mp h⟩
  · intro h
    induction cs with
    | nil => exact .nil
    | cons c cs ih =>
      rw [List.forall_mem_cons] at h
      exact .blank h.1 (ih h.2)

end JsonToken

/-- The text is one of the spellings of the value. -/
def Json.Spells (v : Json) (text : String) : Prop := JsonToken.Lexed v.tokens text.toList

end NamespaceAccess
