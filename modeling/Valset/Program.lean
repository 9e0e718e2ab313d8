/-!
# Programs that ask their surroundings

A program is a tree of questions: it is done with a result, or asks a question and goes on with the
answer. What answers, be it a network, a file system or a prepared list, is chosen when the program
is run.
-/

namespace Valset

/-- The questions that may be asked, and the type of the answer to each. -/
structure Dialogue where
  Question : Type
  Answer : Question → Type

/-- A computation that may ask questions. -/
inductive Program (dialogue : Dialogue) (α : Type)
  | done (result : α)
  | ask (question : dialogue.Question) (next : dialogue.Answer question → Program dialogue α)

namespace Program

variable {dialogue other : Dialogue} {α β : Type}

/-- Goes on with another program once a result is there. -/
def andThen : Program dialogue α → (α → Program dialogue β) → Program dialogue β
  | done result, next => next result
  | ask question rest, next => ask question fun answer => (rest answer).andThen next

instance : Monad (Program dialogue) where
  pure := done
  bind := andThen

/-- Asks one question. -/
def question (question : dialogue.Question) : Program dialogue (dialogue.Answer question) :=
  ask question done

/-- Runs a program, each question being answered by a given action. -/
def run {m : Type → Type} [Monad m]
    (answer : (question : dialogue.Question) → m (dialogue.Answer question)) :
    Program dialogue α → m α
  | done result => pure result
  | ask question next => do
    let reply ← answer question
    (next reply).run answer

/-- The same program with each question put in the terms of another dialogue. -/
def embed (translate : dialogue.Question → other.Question)
    (back : (question : dialogue.Question) →
      other.Answer (translate question) → dialogue.Answer question) :
    Program dialogue α → Program other α
  | done result => done result
  | ask question next =>
    ask (translate question) fun reply => (next (back question reply)).embed translate back

end Program
end Valset
