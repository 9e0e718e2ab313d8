import Valset.CommandLine.Command
import Valset.CommandLine.SettingsFile

/-!
# Whole runs

A run of the program from its words to its exit code. Variables that the environment lacks may come
from a file in the working directory.
-/

namespace Valset
namespace Command

/-- The name and the version of the program. -/
def versionLine : String := "valman 0.2.0"

/-- The directory of the configuration for a home directory. -/
def configDirectory (home : String) : String :=
  Path.join home ".valman"

/-- The exit code of a run that fails. -/
def Failure.exitCode : Failure → UInt8
  | .usage .help => 0
  | .usage .version => 0
  | .usage _ => 2
  | .command _ => 1

/-- The commands of the program. -/
def helpLines : List String :=
  "Usage: valman <COMMAND>" :: usage.grammar.commands.map fun entry => "  " ++ entry.1

/-- Prints lines. -/
def printLines : List String → Program CommandDialogue Unit
  | [] => .done ()
  | line :: rest => .ask (.print line) fun _ => printLines rest

/-- What a run prints that fails or tells something else than a result. -/
def Failure.report : Failure → Program CommandDialogue Unit
  | .usage .version => printLines [versionLine]
  | .usage .help => printLines helpLines
  | _ => .done ()

/-- Runs the program on words; gives the exit code. -/
def runProcess (words : List String) : Program CommandDialogue (UInt8 × Option Failure) := do
  let known ← SettingsFile.load
  SettingsFile.supply known <|
    .ask (.setting "HOME") fun (home : Option String) => do
      match ← runLine (configDirectory (home.getD "")) words with
      | .ok () => return (0, none)
      | .error failure =>
        failure.report
        return (failure.exitCode, some failure)

end Command
end Valset
