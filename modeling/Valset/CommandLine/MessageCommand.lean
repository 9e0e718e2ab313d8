import Valset.CommandLine.Dialogue
import Valset.CommandLine.Readers
import Valset.Message
import Valset.Message.Json

/-!
# Commands on messages

Packing and unpacking messages of the P-Chain. No node is asked.
-/

namespace Valset

/-- A command on messages. Values with many parts are named by an argument that holds JSON. -/
inductive MessageCommand
  | packConversionData (data : String)
  | packConversion (conversion : ConversionId)
  | packRegister (period : String)
  | packRegistration (validation : ValidationId) (registered : Bool)
  | packWeight (validation : ValidationId) (nonce weight : UInt64)
  | packUptime (validation : ValidationId) (uptime : UInt64)
  | unpack (message : Bytes)
  | unpackConversionData (packed : Bytes)
  | conversionId (data : String)
  | verifyConversion (message : Bytes) (data : String)
  | initialValidationId (subnet : SubnetId) (index : UInt32)

namespace MessageCommand

open CommandLine

/-- What the commands accept. -/
def usage : List (String × Arguments MessageCommand) := [
  ("pack-conversion-data", packConversionData <$> .required (.position "data") .text),
  ("pack-conversion", packConversion <$> .required (.position "conversion-id") .id),
  ("pack-register", packRegister <$> .required (.position "period") .text),
  ("pack-registration", (fun validation expired => packRegistration validation !expired) <$>
    .required (.position "validation-id") .id <*> .flag (.flag "not-registered")),
  ("pack-weight", packWeight <$> .required (.position "validation-id") .id <*>
    .required (.option "nonce") .uint64 <*> .required (.option "weight") .uint64),
  ("pack-uptime", packUptime <$> .required (.position "validation-id") .id <*>
    .required (.option "uptime") .uint64),
  ("unpack", (fun message isData => if isData then unpackConversionData message
      else unpack message) <$>
    .required (.position "message") .bytes <*> .flag (.flag "conversion-data")),
  ("conversion-id", conversionId <$> .required (.position "data") .text),
  ("verify-conversion", verifyConversion <$> .required (.position "message") .bytes <*>
    .required (.position "data") .text),
  ("initial-validation-id", initialValidationId <$> .required (.position "subnet-id") .id <*>
    .required (.position "index") .uint32)]

/-- The value of an argument that holds JSON. -/
def readArgument {α : Type} (read : Json.Reader α) (argument : String) : FileCommand α :=
  ExceptT.adapt .ofJsonArgument (readJsonArgument read argument)

/-- The result of coding a message. -/
def coded {α : Type} (result : Except MessageError α) : FileCommand α :=
  ofExcept (result.mapError .message)

/-- What a command prints. -/
def output : MessageCommand → FileCommand String
  | packConversionData data => do
    let data ← readArgument ConversionData.ofJson? data
    return Hex.encode0x (← coded data.pack)
  | packConversion conversion =>
    return Hex.encode0x (Message.packConversion conversion)
  | packRegister period => do
    let period ← readArgument ValidationPeriod.ofJson? period
    let (validation, message) ← coded (Message.packRegister period)
    return s!"validation id: {validation.display}\nmessage: {Hex.encode0x message}"
  | packRegistration validation registered =>
    return Hex.encode0x (Message.packRegistration validation registered)
  | packWeight validation nonce weight =>
    return Hex.encode0x (Message.packWeight validation nonce weight)
  | packUptime validation uptime =>
    return Hex.encode0x (Message.packUptime validation uptime)
  | unpack message =>
    return (← coded (Message.decode message)).toJson.indented
  | unpackConversionData packed =>
    return (← coded (ConversionData.unpack packed)).toJson.indented
  | conversionId data => do
    let data ← readArgument ConversionData.ofJson? data
    return (← coded data.conversionId).display
  | verifyConversion message data => do
    let data ← readArgument ConversionData.ofJson? data
    let conversion ← coded (Message.verifyConversion message data)
    return s!"conversion id {conversion.display} matches"
  | initialValidationId subnet index =>
    return (Valset.initialValidationId subnet index).display

/-- Carries a command out. -/
def run (command : MessageCommand) : CommandProgram Unit := do
  CommandProgram.printLine (← CommandProgram.withFiles id command.output)

end MessageCommand
end Valset
