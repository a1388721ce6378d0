import NamespaceAccess.Json.Reader
import NamespaceAccess.Json.Record
import NamespaceAccess.Proofs.Spelling

/-!
Reading undoes writing: the compact text of a value is read as that value, however deep it is
nested.
-/
namespace NamespaceAccess

theorem mapM_map_eq_some {α β γ : Type} {k : α → β} {f : β → Option γ} {g : α → γ} {l : List α}
    (h : ∀ a ∈ l, f (k a) = some (g a)) : (l.map k).mapM f = some (l.map g) := by
  induction l with
  | nil => rfl
  | cons a l ih =>
    rw [List.forall_mem_cons] at h
    simp [List.mapM_cons, h.1, ih h.2]

namespace Json

open JsonToken (Apart)

/-- What holds of a container may rest on what holds of all that it contains. -/
@[elab_as_elim]
theorem induction {P : Json → Prop} (null : P null) (bool : ∀ b, P (bool b))
    (number : ∀ n, P (number n)) (string : ∀ s, P (string s))
    (array : ∀ items, (∀ v ∈ items, P v) → P (array items))
    (object : ∀ members, (∀ m ∈ members, P m.2) → P (object members)) : ∀ v, P v
  | .null => null
  | .bool b => bool b
  | .number n => number n
  | .string s => string s
  | .array items => array items fun v _ => induction null bool number string array object v
  | .object members =>
    object members fun m _ => induction null bool number string array object m.2
termination_by v => sizeOf v
decreasing_by
  · have hv := List.sizeOf_lt_of_mem ‹v ∈ items›
    simp only [Json.array.sizeOf_spec]
    omega
  · have hm := List.sizeOf_lt_of_mem ‹m ∈ members›
    cases m
    simp only [Json.object.sizeOf_spec, Prod.mk.sizeOf_spec] at hm ⊢
    omega

def Writable (v : Json) : Prop := ∀ t ∈ v.tokens, t.isWritable

section writable

variable {items : List Json} {members : List (String × Json)}

theorem writable_null : Writable null := by simp [Writable, tokens, JsonToken.isWritable]

theorem writable_ofString (s : String) : (ofString s).Writable := by
  simp [Writable, ofString, tokens, JsonToken.isWritable]

theorem writable_ofNat (n : Nat) : (ofNat n).Writable := by
  simpa [Writable, ofNat, tokens, JsonToken.isWritable] using JsonToken.isNumber_repr n

theorem writable_ofOption {α : Type} {f : α → Json} (h : ∀ a, (f a).Writable) (o : Option α) :
    (ofOption f o).Writable := by
  cases o with
  | none => exact writable_null
  | some a => exact h a

theorem writable_array (h : ∀ v ∈ items, v.Writable) : (array items).Writable := by
  have hitems : ∀ t ∈ itemTokens items, t.isWritable := by
    induction items with
    | nil => simp [itemTokens]
    | cons v items ih =>
      rw [List.forall_mem_cons] at h
      cases items with
      | nil => exact h.1
      | cons w items =>
        rw [itemTokens, List.forall_mem_append, List.forall_mem_cons]
        exact ⟨h.1, rfl, ih h.2⟩
  intro t ht
  simp only [tokens, List.cons_append, List.mem_cons, List.mem_append, List.not_mem_nil,
    or_false] at ht
  rcases ht with rfl | ht | rfl
  · rfl
  · exact hitems t ht
  · rfl

theorem writable_record (h : ∀ m ∈ members, m.2.Writable) : (record members).Writable := by
  have hmembers : ∀ t ∈ memberTokens (members.map fun m => (some m.1, m.2)), t.isWritable := by
    induction members with
    | nil => simp [memberTokens]
    | cons m members ih =>
      rw [List.forall_mem_cons] at h
      cases members with
      | nil =>
        simp only [List.map_cons, List.map_nil, memberTokens, List.forall_mem_cons]
        exact ⟨rfl, rfl, h.1⟩
      | cons m' members =>
        simp only [List.map_cons, memberTokens, List.cons_append, List.forall_mem_cons,
          List.forall_mem_append]
        exact ⟨rfl, rfl, h.1, rfl, ih h.2⟩
  intro t ht
  simp only [record, tokens, List.cons_append, List.mem_cons, List.mem_append, List.not_mem_nil,
    or_false] at ht
  rcases ht with rfl | ht | rfl
  · rfl
  · exact hmembers t ht
  · rfl

end writable

section separators

variable {t : JsonToken} {ts us : List JsonToken}

theorem isChain_cons (ht : t.isOpenEnded = false) (h : ts.IsChain Apart) :
    (t :: ts).IsChain Apart :=
  h.cons fun u _ hopen => absurd hopen (by simp [ht])

/-- A sign keeps whatever stands on its two sides apart. -/
theorem isChain_append_cons (ht : t.isOpenEnded = false) (hts : ts.IsChain Apart)
    (hus : us.IsChain Apart) : (ts ++ t :: us).IsChain Apart := by
  refine hts.append (isChain_cons ht hus) ?_
  intro u _ v hv _
  rw [List.head?_cons, Option.mem_some_iff] at hv
  exact hv ▸ ht

theorem isChain_itemTokens {items : List Json} (h : ∀ v ∈ items, v.tokens.IsChain Apart) :
    (itemTokens items).IsChain Apart := by
  induction items with
  | nil => exact .nil
  | cons v items ih =>
    rw [List.forall_mem_cons] at h
    cases items with
    | nil => exact h.1
    | cons w items => exact isChain_append_cons rfl h.1 (ih h.2)

theorem isChain_memberTokens {members : List (JsonText × Json)}
    (h : ∀ m ∈ members, m.2.tokens.IsChain Apart) : (memberTokens members).IsChain Apart := by
  induction members with
  | nil => exact .nil
  | cons m members ih =>
    rw [List.forall_mem_cons] at h
    cases members with
    | nil => exact isChain_cons rfl (isChain_cons rfl h.1)
    | cons m' members =>
      exact isChain_cons rfl (isChain_cons rfl (isChain_append_cons rfl h.1 (ih h.2)))

theorem isChain_tokens (v : Json) : v.tokens.IsChain Apart := by
  induction v using Json.induction with
  | null | bool b | number n | string s => exact .singleton _
  | array items ih => exact isChain_cons rfl (isChain_append_cons rfl (isChain_itemTokens ih) .nil)
  | object members ih =>
    exact isChain_cons rfl (isChain_append_cons rfl (isChain_memberTokens ih) .nil)

end separators

namespace Progress

variable {stack : List Frame} {rest : List JsonToken}

/-- Where a value is expected, this one is read from its tokens, and what follows it is left. -/
def ReadsBack (v : Json) : Prop :=
  ∀ (stack : List Frame) (rest : List JsonToken),
    (expectValue stack).run (v.tokens ++ rest) = (readValue v stack).run rest

/-- No value begins with the end of an array, so one that was just opened takes any value. -/
theorem run_openedArray (v : Json) :
    (openedArray stack).run (v.tokens ++ rest) =
      (expectValue (.array [] :: stack)).run (v.tokens ++ rest) := by
  cases v <;> rfl

theorem exists_itemTokens_eq (v : Json) (items : List Json) :
    ∃ ts, itemTokens (v :: items) = v.tokens ++ ts := by
  cases items with
  | nil => exact ⟨[], (List.append_nil _).symm⟩
  | cons w items => exact ⟨.comma :: itemTokens (w :: items), rfl⟩

theorem run_openedObject (m : JsonText × Json) (members : List (JsonText × Json)) :
    (openedObject stack).run (memberTokens (m :: members) ++ rest) =
      (expectKey [] stack).run (memberTokens (m :: members) ++ rest) := by
  cases members <;> rfl

theorem run_itemTokens {items before : List Json} (hne : items ≠ [])
    (h : ∀ v ∈ items, ReadsBack v) :
    (expectValue (.array before :: stack)).run (itemTokens items ++ .closeArray :: rest) =
      (readValue (.array (before.reverse ++ items)) stack).run rest := by
  induction items generalizing before with
  | nil => contradiction
  | cons v items ih =>
    rw [List.forall_mem_cons] at h
    cases items with
    | nil =>
      rw [itemTokens, h.1]
      simp [run, step]
    | cons w items =>
      rw [itemTokens, List.append_assoc, h.1, List.cons_append, run]
      simp only [step]
      rw [ih (List.cons_ne_nil _ _) h.2]
      simp

theorem run_memberTokens {members before : List (JsonText × Json)} (hne : members ≠ [])
    (h : ∀ m ∈ members, ReadsBack m.2) :
    (expectKey before stack).run (memberTokens members ++ .closeObject :: rest) =
      (readValue (.object (before.reverse ++ members)) stack).run rest := by
  induction members generalizing before with
  | nil => contradiction
  | cons m members ih =>
    rw [List.forall_mem_cons] at h
    cases members with
    | nil =>
      simp only [memberTokens, List.cons_append, run, step]
      rw [h.1]
      simp [run, step]
    | cons m' members =>
      simp only [memberTokens, List.cons_append, List.append_assoc, run, step]
      rw [h.1, run]
      simp only [step]
      rw [ih (List.cons_ne_nil _ _) h.2]
      simp

theorem readsBack (v : Json) : ReadsBack v := by
  induction v using Json.induction with
  | null | bool b | number n | string s => exact fun _ _ => rfl
  | array items ih =>
    intro stack rest
    cases items with
    | nil => rfl
    | cons v items =>
      have htokens : (Json.array (v :: items)).tokens ++ rest =
          .openArray :: (itemTokens (v :: items) ++ .closeArray :: rest) := by simp [tokens]
      obtain ⟨ts, hitems⟩ := exists_itemTokens_eq v items
      rw [htokens]
      calc (expectValue stack).run (.openArray :: (itemTokens (v :: items) ++ .closeArray :: rest))
        _ = (openedArray stack).run (itemTokens (v :: items) ++ .closeArray :: rest) := rfl
        _ = (expectValue (.array [] :: stack)).run
              (itemTokens (v :: items) ++ .closeArray :: rest) := by
          rw [hitems, List.append_assoc, run_openedArray]
        _ = (readValue (.array (v :: items)) stack).run rest :=
          run_itemTokens (List.cons_ne_nil _ _) ih
  | object members ih =>
    intro stack rest
    cases members with
    | nil => rfl
    | cons m members =>
      have htokens : (Json.object (m :: members)).tokens ++ rest =
          .openObject :: (memberTokens (m :: members) ++ .closeObject :: rest) := by simp [tokens]
      rw [htokens]
      calc (expectValue stack).run
            (.openObject :: (memberTokens (m :: members) ++ .closeObject :: rest))
        _ = (openedObject stack).run (memberTokens (m :: members) ++ .closeObject :: rest) := rfl
        _ = (expectKey [] stack).run (memberTokens (m :: members) ++ .closeObject :: rest) :=
          run_openedObject m members
        _ = (readValue (.object (m :: members)) stack).run rest :=
          run_memberTokens (List.cons_ne_nil _ _) ih

end Progress

theorem ofTokens?_tokens (v : Json) : ofTokens? v.tokens = some v := by
  have h := Progress.readsBack v [] []
  rw [List.append_nil] at h
  rw [ofTokens?, h]
  rfl

theorem lexFrom_tokens {v : Json} {done : List JsonToken} {cs rest : List Char}
    (h : JsonToken.Lexed v.tokens cs)
    (hrest : ∀ t ∈ v.tokens.getLast?, t.isOpenEnded → JsonToken.Delimited rest) :
    JsonToken.lexFrom done .between (cs ++ rest) =
      JsonToken.lexFrom (v.tokens.reverse ++ done) .between rest :=
  JsonToken.lexFrom_lexed h (isChain_tokens v) hrest

/-- However a value is spelled, it is read from the spelling. -/
theorem parse?_of_spells {v : Json} {text : String} (h : v.Spells text) :
    parse? text = some v := by
  have hlex : JsonToken.lexFrom [] .between (text.toList ++ []) =
      JsonToken.lexFrom (v.tokens.reverse ++ []) .between [] :=
    lexFrom_tokens h fun _ _ _ => JsonToken.delimited_nil
  rw [List.append_nil, List.append_nil] at hlex
  rw [parse?, JsonToken.lex, hlex]
  simpa [JsonToken.lexFrom, JsonToken.finish?] using ofTokens?_tokens v

theorem spells_compact {v : Json} (h : v.Writable) : v.Spells v.compact := by
  rw [Spells, compact, String.toList_ofList]
  exact JsonToken.lexed_flatMap_spell h

/-- Reading undoes writing. -/
theorem parse?_compact {v : Json} (h : v.Writable) : parse? v.compact = some v :=
  parse?_of_spells (spells_compact h)

/-- The text holds no control characters, so it stands on one line. -/
theorem le_toNat_of_mem_compact {v : Json} (h : v.Writable) {c : Char}
    (hc : c ∈ v.compact.toList) : 0x20 ≤ c.toNat := by
  rw [compact, String.toList_ofList, List.mem_flatMap] at hc
  obtain ⟨t, ht, hc⟩ := hc
  exact JsonToken.le_toNat_of_mem_spell (h t ht) c hc

section records

variable {members : List (String × Json)} {name : String}

theorem filter_eq_nil (h : name ∉ members.map Prod.fst) :
    (members.map fun m => (some m.1, m.2)).filter (fun m => m.1 == some name) = [] := by
  rw [List.filter_eq_nil_iff]
  rintro _ hmem
  obtain ⟨m, hm, rfl⟩ := List.mem_map.mp hmem
  simp only [beq_iff_eq, Option.some_inj]
  rintro rfl
  exact h (List.mem_map_of_mem hm)

/-- Where no two members share a name, each is found under its own. -/
theorem member?_of_mem {m : String × Json} (h : (members.map Prod.fst).Nodup) (hm : m ∈ members) :
    member? (members.map fun m => (some m.1, m.2)) m.1 = some m.2 := by
  have hfilter : (members.map fun m => (some m.1, m.2)).filter (fun n => n.1 == some m.1) =
      [(some m.1, m.2)] := by
    induction members with
    | nil => contradiction
    | cons n members ih =>
      rw [List.map_cons, List.nodup_cons] at h
      rcases List.mem_cons.mp hm with rfl | hm
      · simp [filter_eq_nil h.1]
      · have hne : n.1 ≠ m.1 := fun heq => h.1 (heq ▸ List.mem_map_of_mem hm)
        simpa [hne] using ih h.2 hm
  rw [member?, hfilter]

/-- Members that are not asked for are passed over. -/
theorem fields?_record {asked : List (String × Json)} (h : (members.map Prod.fst).Nodup)
    (hasked : asked ⊆ members) :
    (record members).fields? (asked.map Prod.fst) = some (asked.map Prod.snd) := by
  have hnames : (members.map fun m => (some m.1, m.2)).all (fun m => m.1.isSome) := by simp
  rw [record, fields?, if_pos hnames]
  exact mapM_map_eq_some fun m hm => member?_of_mem h (hasked hm)

theorem bind_fields?_record {α : Type} {read : List Json → Option α} {a : α}
    (h : (members.map Prod.fst).Nodup) (hread : read (members.map Prod.snd) = some a) :
    ((record members).fields? (members.map Prod.fst)).bind read = some a := by
  rw [fields?_record h (List.Subset.refl members), Option.bind_some, hread]

end records

end Json

end NamespaceAccess
