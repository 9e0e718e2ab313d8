import Valset.CommandLine.Context
import Valset.CommandLine.MessageCommand
import Valset.CommandLine.Readers
import Valset.Validator.Json

/-!
# Commands on the validator set

Reading the validator set of a manager, and completing its changes with signed messages.
-/

namespace Valset

/-- A command on the validator set. -/
inductive ValidatorCommand
  | get (validation : ValidationId)
  | lookup (node : NodeId)
  | totalWeight
  | subnet
  | history (validation : ValidationId) (fromBlock : UInt64)
  | initializeSet (conversion : String) (signed : SignedMessages)
  | completeRegistration (signed : SignedMessages)
  | completeRemoval (signed : SignedMessages)
  | completeWeightUpdate (signed : SignedMessages)

namespace ValidatorCommand

open CommandLine CommandProgram

/-- What the commands accept. -/
def usage : List (String × Arguments ValidatorCommand) := [
  ("get", get <$> .required (.position "validation-id") .id),
  ("lookup", lookup <$> .required (.position "node-id") .node),
  ("total-weight", pure totalWeight),
  ("subnet", pure subnet),
  ("history", history <$> .required (.position "validation-id") .id <*>
    .withDefault (.option "from-block") .uint64 0),
  ("initialize-set", initializeSet <$> .required (.position "conversion") .text <*>
    SignedMessages.arguments),
  ("complete-registration", completeRegistration <$> SignedMessages.arguments),
  ("complete-removal", completeRemoval <$> SignedMessages.arguments),
  ("complete-weight-update", completeWeightUpdate <$> SignedMessages.arguments)]

/-- Asks the manager something. -/
def inquire {α : Type} (context : Context) (operation : ValidatorManager → Operation α) :
    CommandProgram α := do
  let endpoint ← ofExcept context.reader
  let manager ← ofExcept context.validatorManager
  operate endpoint (operation manager)

/-- Changes something at the manager. -/
def change {α : Type} (context : Context) (operation : ValidatorManager → Operation α) :
    CommandProgram α := do
  let (endpoint, _) ← context.signer
  let manager ← ofExcept context.validatorManager
  operate endpoint (operation manager)

/-- The line about a request to register a validation. -/
def historyLine (event : Event) (log : Log) : String :=
  let weight := (event.uint64? "weight").getD 0
  let expiry := (event.uint64? "registration_expiry").getD 0
  s!"block {log.blockNumber} tx {log.transactionHash.toHex}: weight {weight} expiring at {expiry}"

/-- Carries a command out. -/
def run (context : Context) : ValidatorCommand → CommandProgram Unit
  | get validation => do
    printJson (← inquire context (·.validator validation)).toJson
  | lookup node => do
    match ← inquire context (·.validatorByNode node) with
    | some (validation, validator) =>
      printLine s!"Validation id: {validation.display}"
      printJson validator.toJson
    | none => printLine s!"{node.display} is not a validator on this manager"
  | totalWeight => do
    let weight ← inquire context (·.totalWeight)
    printLine s!"{weight}"
  | subnet => do
    let subnet ← inquire context (·.subnetId)
    printLine s!"{subnet.display} ({subnet.toCb58})"
  | history validation fromBlock => do
    let requests ← inquire context (·.registrationHistory validation fromBlock)
    if requests.isEmpty then printLine s!"No registration found for {validation.display}"
    requests.forM fun (event, log) => printLine (historyLine event log)
  | initializeSet conversion signed => do
    let data ← withFiles id (MessageCommand.readArgument ConversionData.ofJson? conversion)
    let validations ← change context
      (·.initializeValidatorSet data signed.messages signed.index)
    validations.forM fun validation => printLine validation.display
  | completeRegistration signed => do
    let validation ← change context (·.completeRegistration signed.messages signed.index)
    printLine s!"Registered {validation.display}"
  | completeRemoval signed => do
    let validation ← change context (·.completeRemoval signed.messages signed.index)
    printLine s!"Removed {validation.display}"
  | completeWeightUpdate signed => do
    let (validation, nonce) ← change context
      (·.completeWeightUpdate signed.messages signed.index)
    printLine s!"Weight update {nonce} of {validation.display} acknowledged"

end ValidatorCommand
end Valset
