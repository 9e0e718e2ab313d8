import Valset.Proofs.Conversation

/-!
# Programs and the state around them

What surrounds a program may change with every answer that it gives, and a program may be stopped
between any two answers. A program keeps a property when the property holds at all these moments,
whatever the answers are.
-/

namespace Valset

/-- Which answers surroundings may give to a question, and how their state changes with them. -/
abbrev Moves (dialogue : Dialogue) (State : Type) : Type :=
  (question : dialogue.Question) → dialogue.Answer question → State → State → Prop

namespace Program

variable
  {dialogue other : Dialogue}
  {State Outer α β : Type}
  {moves : Moves dialogue State}

/-- What is left of a program and the state around it, some answers later. -/
inductive Leads (moves : Moves dialogue State) :
    Program dialogue α → State → Program dialogue α → State → Prop
  | start (program : Program dialogue α) (state : State) : Leads moves program state program state
  | turn
      {question : dialogue.Question}
      {next : dialogue.Answer question → Program dialogue α}
      {before after last : State}
      {rest : Program dialogue α}
      (answer : dialogue.Answer question)
      (moved : moves question answer before after)
      (led : Leads moves (next answer) after rest last) :
      Leads moves (.ask question next) before rest last

theorem Leads.trans
    {program middle rest : Program dialogue α}
    {state between last : State}
    (first : program.Leads moves state middle between)
    (second : middle.Leads moves between rest last) :
    program.Leads moves state rest last := by
  induction first with
  | start => exact second
  | turn answer moved _ inductionHypothesis => exact .turn answer moved (inductionHypothesis second)

/-- What every answer leaves as it is, a program leaves as it is. -/
theorem Leads.invariant
    {holds : State → Prop}
    (stable : ∀ question answer before after, moves question answer before after →
      holds before → holds after)
    {program rest : Program dialogue α}
    {state last : State}
    (led : program.Leads moves state rest last)
    (held : holds state) :
    holds last := by
  induction led with
  | start => exact held
  | turn answer moved _ inductionHypothesis =>
      exact inductionHypothesis (stable _ answer _ _ moved held)

/-- What follows a program stays outstanding while the program is led on. -/
theorem Leads.andThen
    {program rest : Program dialogue α}
    {state last : State}
    (led : program.Leads moves state rest last)
    (next : α → Program dialogue β) :
    (program.andThen next).Leads moves state (rest.andThen next) last := by
  induction led with
  | start => exact .start _ _
  | turn answer moved _ inductionHypothesis => exact .turn answer moved inductionHypothesis

/-- A program that is led to its result goes on with what follows it. -/
theorem Leads.andThen_of_done
    {program : Program dialogue α}
    {next : α → Program dialogue β}
    {rest : Program dialogue β}
    {result : α}
    {state between last : State}
    (first : program.Leads moves state (.done result) between)
    (second : (next result).Leads moves between rest last) :
    (program.andThen next).Leads moves state rest last :=
  (first.andThen next).trans second

/-- Wider surroundings that may answer in the same way lead a program in the same way. -/
theorem Leads.embed
    {outer : Moves other Outer}
    {translate : dialogue.Question → other.Question}
    {back : (question : dialogue.Question) →
      other.Answer (translate question) → dialogue.Answer question}
    {inside : State → Outer}
    (answered : ∀ question answer before after, moves question answer before after →
      ∃ reply, back question reply = answer ∧
        outer (translate question) reply (inside before) (inside after))
    {program rest : Program dialogue α}
    {state last : State}
    (led : program.Leads moves state rest last) :
    (program.embed translate back).Leads outer (inside state) (rest.embed translate back)
      (inside last) := by
  induction led with
  | start => exact .start _ _
  | turn answer moved _ inductionHypothesis =>
      obtain ⟨reply, rfl, movedOutside⟩ := answered _ answer _ _ moved
      exact .turn reply movedOutside inductionHypothesis

/-- From a state on, one property holds at every moment of a program and another one of its result
at the end. -/
def Keeps
    (moves : Moves dialogue State)
    (always : State → Prop)
    (atEnd : α → State → Prop) : Program dialogue α → State → Prop
  | done result, state => always state ∧ atEnd result state
  | ask question next, state =>
    always state ∧ ∀ answer after, moves question answer state after →
      (next answer).Keeps moves always atEnd after

section Keeps

variable
  {always : State → Prop}
  {atEnd : α → State → Prop}
  {program rest : Program dialogue α}
  {state last : State}

theorem Keeps.always_state (kept : program.Keeps moves always atEnd state) : always state := by
  cases program with
  | done result => exact kept.1
  | ask question next => exact kept.1

/-- What a program keeps, the rest of it keeps at every moment. -/
theorem Keeps.of_leads
    (kept : program.Keeps moves always atEnd state)
    (led : program.Leads moves state rest last) :
    rest.Keeps moves always atEnd last := by
  induction led with
  | start => exact kept
  | turn answer moved _ inductionHypothesis =>
      exact inductionHypothesis (kept.2 answer _ moved)

/-- A program may go on after its result as long as it keeps the property. -/
theorem Keeps.andThen
    {next : α → Program dialogue β}
    {further : β → State → Prop}
    (kept : program.Keeps moves always atEnd state)
    (goesOn : ∀ result after, always after → atEnd result after →
      (next result).Keeps moves always further after) :
    (program.andThen next).Keeps moves always further state := by
  induction program generalizing state with
  | done result => exact goesOn result state kept.1 kept.2
  | ask question following inductionHypothesis =>
      exact ⟨kept.1, fun answer after moved =>
        inductionHypothesis answer (kept.2 answer after moved)⟩

/-- A program keeps what follows from what it keeps. -/
theorem Keeps.mono
    {weaker : State → Prop}
    {weakerEnd : α → State → Prop}
    (kept : program.Keeps moves always atEnd state)
    (implied : ∀ after, always after → weaker after)
    (impliedEnd : ∀ result after, always after → atEnd result after → weakerEnd result after) :
    program.Keeps moves weaker weakerEnd state := by
  induction program generalizing state with
  | done result => exact ⟨implied _ kept.1, impliedEnd _ _ kept.1 kept.2⟩
  | ask question next inductionHypothesis =>
      exact ⟨implied _ kept.1, fun answer after moved =>
        inductionHypothesis answer (kept.2 answer after moved)⟩

/-- What every answer leaves as it is holds at every moment beside what is kept. -/
theorem Keeps.and_invariant
    {holds : State → Prop}
    (stable : ∀ question answer before after, moves question answer before after →
      holds before → holds after)
    (kept : program.Keeps moves always atEnd state)
    (held : holds state) :
    program.Keeps moves (fun after => always after ∧ holds after) atEnd state := by
  induction program generalizing state with
  | done result => exact ⟨⟨kept.1, held⟩, kept.2⟩
  | ask question next inductionHypothesis =>
      exact ⟨⟨kept.1, held⟩, fun answer after moved =>
        inductionHypothesis answer (kept.2 answer after moved)
          (stable question answer state after moved held)⟩

/-- Surroundings that may do less keep what is kept. -/
theorem Keeps.restrict
    {fewer : Moves dialogue State}
    (allowed : ∀ question answer before after, fewer question answer before after →
      moves question answer before after)
    (kept : program.Keeps moves always atEnd state) :
    program.Keeps fewer always atEnd state := by
  induction program generalizing state with
  | done result => exact kept
  | ask question next inductionHypothesis =>
      exact ⟨kept.1, fun answer after moved => inductionHypothesis answer
        (kept.2 answer after (allowed question answer state after moved))⟩

/-- A program keeps a property in wider surroundings that answer its questions in the same way. -/
theorem Keeps.embed
    {outer : Moves other Outer}
    {translate : dialogue.Question → other.Question}
    {back : (question : dialogue.Question) →
      other.Answer (translate question) → dialogue.Answer question}
    {inside : State → Outer}
    (simulated : ∀ question reply before after,
      outer (translate question) reply (inside before) after →
        ∃ left, moves question (back question reply) before left ∧ after = inside left)
    {always : Outer → Prop}
    {atEnd : α → Outer → Prop}
    (kept : program.Keeps moves (fun state => always (inside state))
      (fun result state => atEnd result (inside state)) state) :
    (program.embed translate back).Keeps outer always atEnd (inside state) := by
  induction program generalizing state with
  | done result => exact kept
  | ask question next inductionHypothesis =>
      refine ⟨kept.1, fun reply after moved => ?_⟩
      obtain ⟨left, movedInside, rfl⟩ := simulated question reply state after moved
      exact inductionHypothesis (back question reply) (kept.2 _ left movedInside)

end Keeps

/-- Two programs in a row are answered one after the other. -/
theorem run_andThen
    (answer : (question : dialogue.Question) → Program other (dialogue.Answer question))
    (program : Program dialogue α)
    (next : α → Program dialogue β) :
    (program.andThen next).run answer =
      (program.run answer).andThen fun result => (next result).run answer := by
  induction program with
  | done result => rfl
  | ask question following inductionHypothesis =>
      change (answer question).andThen _ = ((answer question).andThen _).andThen _
      rw [andThen_assoc]
      congr 1
      funext reply
      exact inductionHypothesis reply

end Program
end Valset
