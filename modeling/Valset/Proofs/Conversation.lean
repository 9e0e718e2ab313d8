import Valset.Program

/-!
# Conversations of programs

A program and its surroundings take turns. A conversation lists the questions asked so far with
their answers, and a program may be stopped after any of them. A property of all conversations
therefore holds at every moment of every run, whatever the surroundings answer.
-/

namespace Valset

/-- A question with the answer that was given to it. -/
structure Exchange (dialogue : Dialogue) where
  question : dialogue.Question
  answer : dialogue.Answer question

namespace Program

variable {dialogue : Dialogue} {α β : Type}

/-- Three programs in a row may be put together from either end. -/
theorem andThen_assoc
    {γ : Type}
    (program : Program dialogue α)
    (next : α → Program dialogue β)
    (last : β → Program dialogue γ) :
    (program.andThen next).andThen last =
      program.andThen fun result => (next result).andThen last := by
  induction program with
  | done result => rfl
  | ask question following inductionHypothesis =>
      change ask question _ = ask question _
      congr 1
      funext answer
      exact inductionHypothesis answer

/-- What is left of a program after a conversation. -/
inductive Reaches :
    Program dialogue α → List (Exchange dialogue) → Program dialogue α → Prop
  | start (program : Program dialogue α) : Reaches program [] program
  | turn
      {question : dialogue.Question}
      {next : dialogue.Answer question → Program dialogue α}
      {conversation : List (Exchange dialogue)}
      {rest : Program dialogue α}
      (answer : dialogue.Answer question)
      (reached : Reaches (next answer) conversation rest) :
      Reaches (.ask question next) (⟨question, answer⟩ :: conversation) rest

/-- A program that is done asks nothing more. -/
theorem reaches_done_iff
    {result : α}
    {conversation : List (Exchange dialogue)}
    {rest : Program dialogue α} :
    (done result).Reaches conversation rest ↔ conversation = [] ∧ rest = done result := by
  constructor
  · intro reached
    cases reached
    exact ⟨rfl, rfl⟩
  · rintro ⟨rfl, rfl⟩
    exact .start _

/-- A program that asks a question either waits for the answer or goes on with it. -/
theorem reaches_ask_iff
    {question : dialogue.Question}
    {next : dialogue.Answer question → Program dialogue α}
    {conversation : List (Exchange dialogue)}
    {rest : Program dialogue α} :
    (ask question next).Reaches conversation rest ↔
      (conversation = [] ∧ rest = ask question next) ∨
        ∃ answer later, conversation = ⟨question, answer⟩ :: later ∧
          (next answer).Reaches later rest := by
  constructor
  · intro reached
    cases reached with
    | start => exact .inl ⟨rfl, rfl⟩
    | turn answer reached => exact .inr ⟨answer, _, rfl, reached⟩
  · rintro (⟨rfl, rfl⟩ | ⟨answer, later, rfl, reached⟩)
    · exact .start _
    · exact .turn answer reached

/-- Behind the answer to its first question, a program goes on as it chose for that answer. -/
theorem reaches_ask_cons_iff
    {question : dialogue.Question}
    {answer : dialogue.Answer question}
    {next : dialogue.Answer question → Program dialogue α}
    {later : List (Exchange dialogue)}
    {rest : Program dialogue α} :
    (ask question next).Reaches (⟨question, answer⟩ :: later) rest ↔
      (next answer).Reaches later rest := by
  constructor
  · intro reached
    cases reached with
    | turn _ reachedLater => exact reachedLater
  · exact .turn answer

/-- A program with a single question is done once it is answered. -/
theorem reaches_ask_done_iff
    {question : dialogue.Question}
    {result : dialogue.Answer question → α}
    {conversation : List (Exchange dialogue)}
    {rest : Program dialogue α} :
    (ask question fun answer => done (result answer)).Reaches conversation rest ↔
      (conversation = [] ∧ rest = ask question fun answer => done (result answer)) ∨
        ∃ answer, conversation = [⟨question, answer⟩] ∧ rest = done (result answer) := by
  simp only [reaches_ask_iff, reaches_done_iff]
  constructor
  · rintro (waiting | ⟨answer, later, rfl, rfl, rfl⟩)
    · exact .inl waiting
    · exact .inr ⟨answer, rfl, rfl⟩
  · rintro (waiting | ⟨answer, rfl, rfl⟩)
    · exact .inl waiting
    · exact .inr ⟨answer, [], rfl, rfl, rfl⟩

/-- One conversation continues another. -/
theorem Reaches.append
    {program middle rest : Program dialogue α}
    {first second : List (Exchange dialogue)}
    (reachedMiddle : program.Reaches first middle)
    (reachedRest : middle.Reaches second rest) :
    program.Reaches (first ++ second) rest := by
  induction reachedMiddle with
  | start => exact reachedRest
  | turn answer _ inductionHypothesis => exact .turn answer (inductionHypothesis reachedRest)

/-- What follows a program stays outstanding while the program is talking. -/
theorem Reaches.andThen
    {program rest : Program dialogue α}
    {conversation : List (Exchange dialogue)}
    (reached : program.Reaches conversation rest)
    (next : α → Program dialogue β) :
    (program.andThen next).Reaches conversation (rest.andThen next) := by
  induction reached with
  | start => exact .start _
  | turn answer _ inductionHypothesis => exact .turn answer inductionHypothesis

/-- A conversation of two programs in a row ends in the first one or, after its result, in the
second one. -/
theorem reaches_andThen_iff
    {program : Program dialogue α}
    {next : α → Program dialogue β}
    {conversation : List (Exchange dialogue)}
    {rest : Program dialogue β} :
    (program.andThen next).Reaches conversation rest ↔
      (∃ left, program.Reaches conversation left ∧ rest = left.andThen next) ∨
        ∃ result first second, conversation = first ++ second ∧
          program.Reaches first (done result) ∧ (next result).Reaches second rest := by
  constructor
  · intro reached
    induction program generalizing conversation with
    | done result => exact .inr ⟨result, [], conversation, rfl, .start _, reached⟩
    | ask question following inductionHypothesis =>
        rcases reaches_ask_iff.mp reached with ⟨rfl, rfl⟩ | ⟨answer, later, rfl, reachedLater⟩
        · exact .inl ⟨_, .start _, rfl⟩
        · rcases inductionHypothesis answer reachedLater with
            ⟨left, reachedLeft, restEqual⟩ |
              ⟨result, first, second, laterEqual, reachedResult, reachedRest⟩
          · exact .inl ⟨left, .turn answer reachedLeft, restEqual⟩
          · refine .inr ⟨result, ⟨question, answer⟩ :: first, second, ?_, ?_, reachedRest⟩
            · rw [laterEqual, List.cons_append]
            · exact .turn answer reachedResult
  · rintro (⟨left, reachedLeft, rfl⟩ | ⟨result, first, second, rfl, reachedResult, reachedRest⟩)
    · exact reachedLeft.andThen next
    · exact (reachedResult.andThen next).append reachedRest

/-- Two programs in a row are done exactly when the second one is done after the first one. -/
theorem reaches_andThen_done_iff
    {program : Program dialogue α}
    {next : α → Program dialogue β}
    {conversation : List (Exchange dialogue)}
    {result : β} :
    (program.andThen next).Reaches conversation (done result) ↔
      ∃ middle first second, conversation = first ++ second ∧
        program.Reaches first (done middle) ∧ (next middle).Reaches second (done result) := by
  rw [reaches_andThen_iff]
  constructor
  · rintro (⟨left, reachedLeft, resultEqual⟩ | reached)
    · cases left with
      | ask question following => simp [andThen] at resultEqual
      | done middle =>
          refine ⟨middle, conversation, [], (List.append_nil _).symm, reachedLeft, ?_⟩
          rw [show next middle = done result from resultEqual.symm]
          exact .start _
    · exact reached
  · exact .inr

/-- A result that is only changed at the end adds no question. -/
theorem reaches_andThen_done_comp_iff
    {program : Program dialogue α}
    {change : α → β}
    {conversation : List (Exchange dialogue)}
    {rest : Program dialogue β} :
    (program.andThen fun result => done (change result)).Reaches conversation rest ↔
      ∃ left, program.Reaches conversation left ∧
        rest = left.andThen fun result => done (change result) := by
  rw [reaches_andThen_iff]
  constructor
  · rintro (reached | ⟨result, first, second, rfl, reachedResult, reachedRest⟩)
    · exact reached
    · obtain ⟨rfl, rfl⟩ := reaches_done_iff.mp reachedRest
      rw [List.append_nil]
      exact ⟨done result, reachedResult, rfl⟩
  · exact .inl

/-- Surroundings that find an answer of some kind to every question bring a program to its end. -/
theorem exists_reaches_done
    {kind : Exchange dialogue → Prop}
    (answerable : ∀ question, ∃ answer, kind ⟨question, answer⟩)
    (program : Program dialogue α) :
    ∃ conversation result, program.Reaches conversation (done result) ∧
      ∀ exchange ∈ conversation, kind exchange := by
  induction program with
  | done result => exact ⟨[], result, .start _, by simp⟩
  | ask question next inductionHypothesis =>
      obtain ⟨answer, answered⟩ := answerable question
      obtain ⟨conversation, result, reached, all⟩ := inductionHypothesis answer
      refine ⟨⟨question, answer⟩ :: conversation, result, .turn _ reached, ?_⟩
      intro exchange present
      rcases List.mem_cons.mp present with rfl | inLater
      · exact answered
      · exact all exchange inLater

end Program
end Valset
