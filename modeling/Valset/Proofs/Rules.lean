import Valset.Proofs.Conversation

/-!
# Rules for conversations

A rule says, for everything that may have been said before, whether a question may be asked. A
program that obeys a rule keeps to it whatever it is answered, and its result fits the whole
conversation.
-/

namespace Valset
namespace Program

variable
  {dialogue : Dialogue}
  {α β : Type}
  {permits : List (Exchange dialogue) → dialogue.Question → Prop}
  {atEnd : List (Exchange dialogue) → α → Prop}

/-- After a history, every question that a program may still ask is permitted at its moment, and
every result fits the conversation that ends with it. -/
def Obeys
    (permits : List (Exchange dialogue) → dialogue.Question → Prop)
    (atEnd : List (Exchange dialogue) → α → Prop) :
    List (Exchange dialogue) → Program dialogue α → Prop
  | history, done result => atEnd history result
  | history, ask question next =>
    permits history question ∧
      ∀ answer, (next answer).Obeys permits atEnd (history ++ [⟨question, answer⟩])

/-- What is left of a program obeys the rules that the program obeys. -/
theorem Obeys.of_reaches
    {program rest : Program dialogue α}
    {history conversation : List (Exchange dialogue)}
    (obeys : program.Obeys permits atEnd history)
    (reached : program.Reaches conversation rest) :
    rest.Obeys permits atEnd (history ++ conversation) := by
  induction reached generalizing history with
  | start => rwa [List.append_nil]
  | turn answer _ inductionHypothesis =>
      rw [List.append_cons]
      exact inductionHypothesis (obeys.2 answer)

/-- Every question of a conversation was permitted when it was asked. -/
theorem Obeys.permits_of_reaches
    {program rest : Program dialogue α}
    {history before after : List (Exchange dialogue)}
    {question : dialogue.Question}
    {answer : dialogue.Answer question}
    (obeys : program.Obeys permits atEnd history)
    (reached : program.Reaches (before ++ ⟨question, answer⟩ :: after) rest) :
    permits (history ++ before) question := by
  induction before generalizing program history with
  | nil =>
      cases reached with
      | turn _ _ =>
          rw [List.append_nil]
          exact obeys.1
  | cons exchange before inductionHypothesis =>
      cases reached with
      | turn _ reachedLater =>
          rw [List.append_cons]
          exact inductionHypothesis (obeys.2 _) reachedLater

/-- A result fits the conversation that ends with it. -/
theorem Obeys.atEnd_of_reaches
    {program : Program dialogue α}
    {history conversation : List (Exchange dialogue)}
    {result : α}
    (obeys : program.Obeys permits atEnd history)
    (reached : program.Reaches conversation (done result)) :
    atEnd (history ++ conversation) result :=
  obeys.of_reaches reached

/-- A program obeys weaker rules than those that it obeys. -/
theorem Obeys.mono
    {permitsMore : List (Exchange dialogue) → dialogue.Question → Prop}
    {atLast : List (Exchange dialogue) → α → Prop}
    {program : Program dialogue α}
    {history : List (Exchange dialogue)}
    (obeys : program.Obeys permits atEnd history)
    (permitted : ∀ further question, permits (history ++ further) question →
      permitsMore (history ++ further) question)
    (ended : ∀ further result, atEnd (history ++ further) result →
      atLast (history ++ further) result) :
    program.Obeys permitsMore atLast history := by
  induction program generalizing history with
  | done result =>
      have fits := ended [] result
      rw [List.append_nil] at fits
      exact fits obeys
  | ask question next inductionHypothesis =>
      constructor
      · have allowed := permitted [] question
        rw [List.append_nil] at allowed
        exact allowed obeys.1
      · intro answer
        apply inductionHypothesis answer (obeys.2 answer)
        · intro further
          rw [List.append_assoc]
          exact permitted _
        · intro further
          rw [List.append_assoc]
          exact ended _

/-- A program may go on after its result as long as the rest obeys the rules. -/
theorem Obeys.andThen
    {program : Program dialogue α}
    {next : α → Program dialogue β}
    {atLast : List (Exchange dialogue) → β → Prop}
    {history : List (Exchange dialogue)}
    (obeys : program.Obeys permits atEnd history)
    (goesOn : ∀ later result, atEnd later result → (next result).Obeys permits atLast later) :
    (program.andThen next).Obeys permits atLast history := by
  induction program generalizing history with
  | done result => exact goesOn history result obeys
  | ask question following inductionHypothesis =>
      exact ⟨obeys.1, fun answer => inductionHypothesis answer (obeys.2 answer)⟩

end Program
end Valset
