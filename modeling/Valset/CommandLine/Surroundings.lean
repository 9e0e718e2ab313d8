import Valset.Chain.Script
import Valset.CommandLine.Command
import Valset.Files.Tree

/-!
# Prepared surroundings of commands

Files and an environment as values, where no node can be reached and there is no terminal. What is
printed is kept.
-/

namespace Valset

/-- How a question to a node ends that cannot be reached. -/
def Endpoint.unreachable (endpoint : Endpoint) : String :=
  s!"error sending request for url ({endpoint.url.text}): error trying to connect: " ++
    "tcp connect error: Network is unreachable (os error 101)"

namespace Command

/-- What surrounds a command. -/
structure Surroundings where
  tree : FileTree
  environment : List (String × String)
  printed : String := ""

namespace Surroundings

/-- Random bytes that are always the same. -/
def constantBytes (count : Nat) : Bytes :=
  List.replicate count 1

/-- Answers a question. -/
def answer : (question : CommandQuestion) → StateM Surroundings question.Reply
  | .node endpoint question => fun world =>
    (Valset.unreachable endpoint.unreachable question, world)
  | .file question => fun world =>
    let (reply, tree) := (FileTree.answer question).run world.tree
    (reply, { world with tree })
  | .setting name => fun world => (world.environment.lookup name, world)
  | .entry _ _ => fun world => (none, world)
  | .confirmation _ => fun world => (none, world)
  | .randomBytes count => fun world => (constantBytes count, world)
  | .print line => fun world => ((), { world with printed := world.printed ++ line ++ "\n" })

/-- Runs a program in surroundings. -/
def perform {α : Type} (world : Surroundings) (program : Program CommandDialogue α) :
    α × Surroundings :=
  (program.run answer).run world

end Surroundings
end Command
end Valset
