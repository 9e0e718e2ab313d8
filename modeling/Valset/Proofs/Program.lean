import Valset.Program

/-!
# Programs answered by a state

What programs in a row come to when a state answers their questions and changes with each answer.
-/

namespace Valset
namespace Program

variable
  {dialogue : Dialogue}
  {σ ε α β : Type}
  {answer : (question : dialogue.Question) → StateM σ (dialogue.Answer question)}
  {state later : σ}

/-- The second of two programs goes on with the result and the state of the first one. -/
theorem run_andThen_run
    (program : Program dialogue α)
    (next : α → Program dialogue β)
    (state : σ) :
    ((program.andThen next).run answer).run state =
      ((next ((program.run answer).run state).1).run answer).run
        ((program.run answer).run state).2 := by
  induction program generalizing state with
  | done result => rfl
  | ask question following inductionHypothesis =>
      exact inductionHypothesis (answer question state).1 (answer question state).2

section Steps

variable
  {step : ExceptT ε (Program dialogue) α}
  {next : α → ExceptT ε (Program dialogue) β}

/-- After a step that succeeds, the next one goes on with its value. -/
theorem run_bind_of_ok
    {value : α}
    (done : (step.run.run answer).run state = (.ok value, later)) :
    ((step >>= next).run.run answer).run state = ((next value).run.run answer).run later := by
  change ((step.run.andThen (ExceptT.bindCont next)).run answer).run state = _
  rw [run_andThen_run, done]
  rfl

/-- Two steps in a row succeed when each of them does. -/
theorem run_bind_eq_ok_iff {result : β} :
    ((step >>= next).run.run answer).run state = (.ok result, later) ↔
      ∃ value between, (step.run.run answer).run state = (.ok value, between) ∧
        ((next value).run.run answer).run between = (.ok result, later) := by
  constructor
  · intro performed
    cases done : (step.run.run answer).run state with
    | mk outcome between =>
        cases outcome with
        | ok value =>
            rw [run_bind_of_ok done] at performed
            exact ⟨value, between, rfl, performed⟩
        | error cause =>
            change ((step.run.andThen (ExceptT.bindCont next)).run answer).run state = _
              at performed
            rw [run_andThen_run, done] at performed
            cases performed
  · rintro ⟨value, between, done, performed⟩
    rw [run_bind_of_ok done, performed]

theorem run_adapt
    {ε' : Type}
    (wrap : ε → ε')
    (state : σ) :
    ((ExceptT.adapt wrap step).run.run answer).run state =
      (((step.run.run answer).run state).1.mapError wrap, ((step.run.run answer).run state).2) := by
  change ((step.run.andThen fun result => .done (result.mapError wrap)).run answer).run state = _
  rw [run_andThen_run]
  rfl

/-- A step succeeds whatever becomes of its errors. -/
theorem run_adapt_eq_ok_iff
    {ε' : Type}
    {wrap : ε → ε'}
    {value : α} :
    ((ExceptT.adapt wrap step).run.run answer).run state = (.ok value, later) ↔
      (step.run.run answer).run state = (.ok value, later) := by
  rw [run_adapt]
  rcases (step.run.run answer).run state with ⟨outcome, after⟩
  cases outcome with
  | error cause => constructor <;> nofun
  | ok found =>
      constructor
      · rintro ⟨⟩
        rfl
      · rintro ⟨⟩
        rfl

end Steps

end Program
end Valset
