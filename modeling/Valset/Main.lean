import Valset.CommandLine.Process
import Valset.CommandLine.Surroundings

/-!
# The program

Answers the questions of a run with the files, the environment and the output of the process. There
is no connection to a network, so that every node is unreachable, and nothing is asked on a
terminal.
-/

namespace Valset
namespace Console

/-- The fault that an error of the system stands for. -/
def faultOf : IO.Error → FileFault
  | .noFileOrDirectory .. => .notFound
  | .noSuchThing .. => .notFound
  | .alreadyExists .. => .alreadyThere
  | .inappropriateType _ 20 _ => .notDirectory
  | .inappropriateType .. => .isDirectory
  | error => .other (toString error)

/-- Does something with files. -/
def attempt {α : Type} (action : IO α) : IO (Except FileFault α) := do
  match ← action.toBaseIO with
  | .ok result => return .ok result
  | .error error => return .error (faultOf error)

/-- Answers a question about files. -/
def answerFile : (question : FileQuestion) → IO question.Reply
  | .read path => attempt do return (← IO.FS.readBinFile path).toList
  | .write path content => attempt (IO.FS.writeBinFile path ⟨content.toArray⟩)
  | .move source target => attempt (IO.FS.rename source target)
  | .makeDirectories path => attempt (IO.FS.createDirAll path)
  | .isThere path => do
    let opened ← attempt (IO.FS.Handle.mk path .read)
    return opened.toBool

/-- Answers a question. -/
def answer : (question : CommandQuestion) → IO question.Reply
  | .node endpoint question => return unreachable endpoint.unreachable question
  | .file question => answerFile question
  | .setting name => IO.getEnv name
  | .entry _ _ => return none
  | .confirmation _ => return none
  | .randomBytes count => return (← IO.getRandomBytes (USize.ofNat count)).toList
  | .print line => IO.println line

/-- What is told about a run that fails. -/
def complaint : Command.Failure → String
  | .usage _ => "the command line is not understood; try --help"
  | .command cause => cause.text

end Console
end Valset

/-- Runs the program on the words of its command line. -/
def main (words : List String) : IO UInt32 := do
  let (code, failure) ← Valset.Program.run Valset.Console.answer (Valset.Command.runProcess words)
  match failure with
  | some failure =>
    if code != 0 then IO.eprintln s!"Error: {Valset.Console.complaint failure}"
  | none => pure ()
  return code.toUInt32
