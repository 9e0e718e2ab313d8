import Valset.CommandLine.KeyCommand
import Valset.CommandLine.Parser
import Valset.CommandLine.StakingCommand
import Valset.CommandLine.ValidatorCommand

/-!
# Commands

All commands of the program, and the options that may stand behind each of them.
-/

namespace Valset

/-- The options that may stand behind each command. -/
structure CommonOptions where
  network : Network
  overrides : Overrides

namespace CommonOptions

open CommandLine

/-- The arguments for the options. -/
def arguments : Arguments CommonOptions :=
  (fun network url validatorManager stakingManager token =>
    { network, overrides := { url, validatorManager, stakingManager, token } }) <$>
    .withDefault { Argument.option "network" with
      letter := some 'n', setting := some "VALMAN_NETWORK" } .network .fuji <*>
    .optional { Argument.option "rpc-url" with setting := some "VALMAN_RPC_URL" } .text <*>
    .optional { Argument.option "manager" with setting := some "VALMAN_MANAGER" } .address <*>
    .optional { Argument.option "staking-manager" with
      setting := some "VALMAN_STAKING_MANAGER" } .address <*>
    .optional (.option "token") .token

end CommonOptions

/-- A command. -/
inductive Command
  | config (command : ConfigCommand)
  | key (command : KeyCommand)
  | validator (command : ValidatorCommand)
  | staking (command : StakingCommand)
  | message (command : MessageCommand)

namespace Command

open CommandLine

/-- What the program accepts. -/
def usage : Usage CommonOptions Command where
  grammar := .choice [
    ("config", .choice [
      ("set", .ofCommands config ConfigCommand.setters),
      ("get", .ofCommands config ConfigCommand.getters)]),
    ("key", .ofCommands key KeyCommand.usage),
    ("validator", .ofCommands validator ValidatorCommand.usage),
    ("staking", .ofCommands staking StakingCommand.usage),
    ("message", .ofCommands message MessageCommand.usage)]
  shared := CommonOptions.arguments
  hasVersion := true

/-- The variables of the environment that stand in for options. -/
def settings : List String :=
  usage.shared.parts.filterMap (·.setting)

/-- Carries a command out, with the configuration in a directory. -/
def run (directory : String) (options : CommonOptions) (command : Command) :
    CommandProgram Unit := do
  let loaded ← CommandProgram.withFiles .config (Config.load directory)
  let context : Context := ⟨loaded, options.network, options.overrides⟩
  match command with
  | .config command => command.run loaded
  | .key command => command.run loaded
  | .validator command => command.run context
  | .staking command => command.run context
  | .message command => command.run

/-- The values of some variables of the environment. -/
def readSettings : List String → Program CommandDialogue (List (String × Option String))
  | [] => return []
  | name :: rest => do
    let value : Option String ← Program.ask (.setting name) Program.done
    return (name, value) :: (← readSettings rest)

/-- Why a command line has no result. -/
inductive Failure
  | usage (cause : UsageError)
  | command (cause : CommandError)

/-- Reads the words of a command line and carries the command out. -/
def runLine (directory : String) (words : List String) :
    Program CommandDialogue (Except Failure Unit) := do
  let settings ← readSettings settings
  match usage.parse (fun name => (settings.lookup name).join) words with
  | .error cause => return .error (.usage cause)
  | .ok (options, command) =>
    return (← (run directory options command).run).mapError .command

end Command
end Valset
