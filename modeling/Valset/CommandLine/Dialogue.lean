import Valset.CommandLine.Error
import Valset.Manager.Operation

/-!
# Surroundings of commands

What a command may ask for: nodes, files, variables of the environment, entries on a terminal,
random bytes, and that a line is printed.
-/

namespace Valset

/-- An account that signs transactions for a chain. -/
structure Signer where
  key : PrivateKey
  chainId : UInt64

/-- A node with its URL, and the account that signs the transactions that are sent to it. -/
structure Endpoint where
  url : Url.Parts
  signer : Option Signer

/-- What somebody enters on a terminal: a text, a secret that is not shown, or a new secret that is
entered twice. -/
inductive EntryKind
  | text
  | secret
  | newSecret
deriving DecidableEq, Repr

/-- A question of a command. -/
inductive CommandQuestion
  | node (endpoint : Endpoint) (question : NodeQuestion)
  | file (question : FileQuestion)
  | setting (name : String)
  | entry (kind : EntryKind) (prompt : String)
  | confirmation (prompt : String)
  | randomBytes (count : Nat)
  | print (line : String)

/-- The answer to a question; nothing can be entered where there is no terminal. -/
def CommandQuestion.Reply : CommandQuestion → Type
  | .node _ question => Except NodeError question.Reply
  | .file question => question.Reply
  | .setting _ => Option String
  | .entry _ _ => Option String
  | .confirmation _ => Option Bool
  | .randomBytes _ => Bytes
  | .print _ => Unit

/-- Conversations of commands with their surroundings. -/
def CommandDialogue : Dialogue where
  Question := CommandQuestion
  Answer := CommandQuestion.Reply

/-- A command that uses files only and may fail. -/
abbrev FileCommand := ExceptT CommandError (Program FileDialogue)

/-- A command that may fail. -/
abbrev CommandProgram := ExceptT CommandError (Program CommandDialogue)

namespace CommandProgram

/-- Asks one question. -/
def ask (question : CommandQuestion) : CommandProgram question.Reply :=
  ExceptT.mk (.ask question fun reply => .done (.ok reply))

/-- Prints a line. -/
def printLine (line : String) : CommandProgram Unit :=
  ask (.print line)

/-- Prints a value as indented JSON. -/
def printJson (value : Json) : CommandProgram Unit :=
  printLine value.indented

/-- A step with files alone. -/
def withFiles {ε α : Type} (wrap : ε → CommandError)
    (step : ExceptT ε (Program FileDialogue) α) : CommandProgram α :=
  ExceptT.adapt wrap (ExceptT.mk
    (step.run.embed CommandQuestion.file fun _ reply => reply))

/-- An operation on a contract that is done over an endpoint. -/
def operate {α : Type} (endpoint : Endpoint) (operation : Operation α) : CommandProgram α :=
  ExceptT.adapt .manager (ExceptT.mk (operation.run.embed
    (CommandQuestion.node endpoint) fun _ reply => reply))

/-- What somebody enters on the terminal. -/
def enter (kind : EntryKind) (prompt : String) : CommandProgram String := do
  let answer : Option String ← ask (.entry kind prompt)
  match answer with
  | some text => return text
  | none => throw .noAnswer

end CommandProgram
end Valset
