/-!
# Outcomes

What is common to computations that may fail: when a sequence of them succeeds, and what is left of
them when the reason of a failure does not matter.
-/

namespace RevisionLog.Outcome

variable {ε ε' α β : Type}

theorem bind_eq_ok {first : Except ε α} {next : α → Except ε β} {result : β} :
    first >>= next = .ok result ↔ ∃ value, first = .ok value ∧ next value = .ok result := by
  cases first with
  | error failure => exact ⟨fun h => (nomatch h), fun ⟨_, h, _⟩ => (nomatch h)⟩
  | ok value =>
    refine ⟨fun h => ⟨value, rfl, h⟩, ?_⟩
    rintro ⟨_, same, h⟩
    cases same
    exact h

theorem mapError_eq_ok {outcome : Except ε α} {wrap : ε → ε'} {value : α} :
    outcome.mapError wrap = .ok value ↔ outcome = .ok value := by
  cases outcome with
  | error failure => exact ⟨fun h => (nomatch h), fun h => (nomatch h)⟩
  | ok found =>
    refine ⟨fun h => ?_, fun h => ?_⟩
    · rw [Except.ok.inj h]
    · rw [Except.ok.inj h]
      rfl

@[simp] theorem toOption_mapError (outcome : Except ε α) (wrap : ε → ε') :
    (outcome.mapError wrap).toOption = outcome.toOption := by
  cases outcome <;> rfl

@[simp] theorem toOption_bind (first : Except ε α) (next : α → Except ε β) :
    (first >>= next).toOption = first.toOption.bind fun value => (next value).toOption := by
  cases first <;> rfl

theorem toOption_eq_some {outcome : Except ε α} {value : α} :
    outcome.toOption = some value ↔ outcome = .ok value := by
  cases outcome <;> simp [Except.toOption]

end RevisionLog.Outcome
