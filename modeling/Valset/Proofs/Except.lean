/-!
# Results that may be errors

A chain of steps succeeds if each step does.
-/

namespace Valset

variable
  {ε α β : Type}
  {step : Except ε α}
  {result : β}

theorem bind_eq_ok_iff {next : α → Except ε β} :
    (step >>= next) = .ok result ↔ ∃ value, step = .ok value ∧ next value = .ok result := by
  cases step <;> simp [bind, Except.bind]

theorem ok_bind
    (value : α)
    (next : α → Except ε β) :
    (Except.ok value >>= next) = next value :=
  rfl

theorem map_eq_ok_iff {change : α → β} :
    change <$> step = .ok result ↔ ∃ value, step = .ok value ∧ change value = result := by
  cases step <;> simp [Functor.map, Except.map]

theorem mapError_eq_ok_iff
    {ε' : Type}
    {wrap : ε → ε'}
    {value : α} :
    step.mapError wrap = .ok value ↔ step = .ok value := by
  constructor
  · intro succeeded
    cases step <;> cases succeeded
    rfl
  · rintro rfl
    rfl

end Valset
