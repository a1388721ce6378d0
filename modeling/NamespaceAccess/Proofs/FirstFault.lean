import Mathlib.Logic.ExistsUnique

/-!
Checks that report the first rule broken, told by two predicates: what breaks no rule, and what is
refused with which fault.
-/
namespace NamespaceAccess

/-- The two predicates say all that the check does. -/
structure FirstFault {α ε : Type} (check : α → Option ε) (sound : α → Prop)
    (refused : α → ε → Prop) : Prop where
  of_sound : ∀ {a}, sound a → check a = none
  of_refused : ∀ {a e}, refused a e → check a = some e
  covers : ∀ a, sound a ∨ ∃ e, refused a e

namespace FirstFault

variable {α ε : Type} {check : α → Option ε} {sound : α → Prop} {refused : α → ε → Prop}
  {a : α} {e : ε}

theorem eq_none_iff (h : FirstFault check sound refused) : check a = none ↔ sound a := by
  refine ⟨fun hnone => ?_, h.of_sound⟩
  rcases h.covers a with hsound | ⟨e, hrefused⟩
  · exact hsound
  · simp [h.of_refused hrefused] at hnone

theorem eq_some_iff (h : FirstFault check sound refused) : check a = some e ↔ refused a e := by
  refine ⟨fun hsome => ?_, h.of_refused⟩
  rcases h.covers a with hsound | ⟨e', hrefused⟩
  · simp [h.of_sound hsound] at hsome
  · obtain rfl : e' = e := Option.some.inj ((h.of_refused hrefused).symm.trans hsome)
    exact hrefused

/-- What breaks a rule is refused with one fault and no other. -/
theorem not_sound_iff (h : FirstFault check sound refused) : ¬ sound a ↔ ∃! e, refused a e := by
  constructor
  · intro hunsound
    obtain ⟨e, hrefused⟩ := (h.covers a).resolve_left hunsound
    refine ⟨e, hrefused, fun e' hrefused' => ?_⟩
    exact Option.some.inj ((h.of_refused hrefused').symm.trans (h.of_refused hrefused))
  · rintro ⟨e, hrefused, -⟩ hsound
    have hsome := h.of_refused hrefused
    simp [h.of_sound hsound] at hsome

end FirstFault

end NamespaceAccess
