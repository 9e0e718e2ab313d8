import Valset.CommandLine.Parser
import Valset.CommandLine.Readers
import Valset.Scan.Scanner

/-!
# Parameters of the scanner

What the scanner accepts on its command line.
-/

namespace Valset
namespace Scan

/-- How much the scanner tells about its work. -/
inductive LogLevel
  | off
  | error
  | warn
  | info
  | debug
  | trace
deriving DecidableEq, Repr

namespace LogLevel

/-- All levels with their names; a number stands for the level at its place. -/
def names : List (String × LogLevel) := [
  ("off", .off), ("error", .error), ("warn", .warn), ("info", .info), ("debug", .debug),
  ("trace", .trace)]

/-- The name of a level. -/
def name : LogLevel → String
  | off => "off"
  | error => "error"
  | warn => "warn"
  | info => "info"
  | debug => "debug"
  | trace => "trace"

/-- The level with a name in letters of either case; no name at all stands for errors. -/
def ofName? (text : String) : Option LogLevel :=
  if text == "" then some .error
  else names.lookup (String.ofList (text.toList.map Char.toLower))

/-- The level with a number. -/
def ofNumber? (number : Nat) : Option LogLevel :=
  names[number]?.map (·.2)

/-- Reads a level. -/
def reader : CommandLine.ArgumentReader LogLevel where
  read text :=
    (CommandLine.ArgumentReader.natural? text.toList).bind ofNumber? <|> ofName? text

end LogLevel

/-- The parameters of the scanner. -/
structure Parameters where
  url : String
  addresses : String
  startBlock : UInt64
  logLevel : LogLevel
  checkpoint : String
  output : Option String
  resetCheckpoint : Bool

namespace Parameters

open CommandLine

/-- The name of the checkpoint file if no other one is named. -/
def usualCheckpoint : String := "valman-scanner.checkpoint.json"

/-- The arguments of the scanner. -/
def arguments : Arguments Parameters :=
  let option (name setting : String) : Argument :=
    { Argument.option name with setting := some setting }
  Parameters.mk <$> .required (option "rpc-url" "RPC_URL") .text <*>
    .required (option "addresses" "ADDRESSES") .text <*>
    .withDefault (option "start-block" "START_BLOCK") .uint64 0 <*>
    .withDefault (option "log-level" "LOG_LEVEL") LogLevel.reader .info <*>
    .withDefault (option "checkpoint" "CHECKPOINT") .path usualCheckpoint <*>
    .optional (option "output" "OUTPUT") .path <*>
    .flag { Argument.flag "reset-checkpoint" with letter := some 'r' }

/-- What the scanner accepts. -/
def usage : Usage Unit Parameters where
  grammar := .command arguments
  shared := pure ()
  hasVersion := true

end Parameters

/-- The parts of a text between commas. -/
def commaParts (text : String) : List String :=
  ((text.splitOn ",").map Text.trim).filter (· != "")

/-- Reads addresses that are separated by commas. -/
def readAddresses (text : String) : Except ScanError (List Address) :=
  (commaParts text).mapM fun part =>
    match Address.parse? part with
    | some address => .ok address
    | none => .error (.invalidAddress part)

end Scan
end Valset
