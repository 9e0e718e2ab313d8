import Valset.Manager.Operation

/-!
# Validator managers

Reads the validator set of a manager, and completes its changes with messages of the P-Chain.
-/

namespace Valset

/-- A validator manager, named by its address. -/
structure ValidatorManager where
  address : Address
deriving DecidableEq

namespace ValidatorManager

open Operation

/-- The subnet that is managed. -/
def subnetId (manager : ValidatorManager) : Operation SubnetId :=
  readOne manager.address ValidatorManagerContract.subnetId [] fun value =>
    Id.mk <$> value.fixed? 32

/-- The state of a validator. -/
def validator (manager : ValidatorManager) (validation : ValidationId) :
    Operation ValidatorInfo := do
  let raw ← readOne manager.address ValidatorManagerContract.getValidator
    [.ofFixed validation.hash] RawValidator.ofAbi?
  getOrThrow raw.info? (.invalidStatus .validator raw.status)

/-- The validation of a node; the zero id stands for none. -/
def nodeValidationId (manager : ValidatorManager) (node : Bytes) :
    Operation (Option ValidationId) := do
  let validation : ValidationId ←
    readOne manager.address ValidatorManagerContract.getNodeValidationId [.bytes node] fun value =>
      Id.mk <$> value.fixed? 32
  return if validation.isZero then none else some validation

/-- The validation of a node and its state. -/
def validatorByNode (manager : ValidatorManager) (node : NodeId) :
    Operation (Option (ValidationId × ValidatorInfo)) := do
  match ← manager.nodeValidationId node.bytes with
  | none => return none
  | some validation => return some (validation, ← manager.validator validation)

/-- The weight of all validators together. -/
def totalWeight (manager : ValidatorManager) : Operation UInt64 :=
  readOne manager.address ValidatorManagerContract.l1TotalWeight [] (·.uint64?)

/-- Sets up the first validator set; gives the validations of its members in their order. -/
def initializeValidatorSet (manager : ValidatorManager) (data : ConversionData)
    (messages : List Bytes) (index : UInt32) : Operation (List ValidationId) := do
  let call := callOf manager.address ValidatorManagerContract.initializeValidatorSet
    [data.toAbi, .ofUInt32 index]
  let receipt ← confirmWithMessages call messages index
  return (receipt.events .registeredInitialValidator).filterMap (·.id? "validation_id")

/-- Completes a registration; gives the validation. -/
def completeRegistration (manager : ValidatorManager) (messages : List Bytes) (index : UInt32) :
    Operation ValidationId := do
  let call := callOf manager.address ValidatorManagerContract.completeValidatorRegistration
    [.ofUInt32 index]
  let receipt ← confirmWithMessages call messages index
  expectEvent receipt .completedValidatorRegistration (·.id? "validation_id")

/-- Completes a removal; gives the validation. -/
def completeRemoval (manager : ValidatorManager) (messages : List Bytes) (index : UInt32) :
    Operation ValidationId := do
  let call := callOf manager.address ValidatorManagerContract.completeValidatorRemoval
    [.ofUInt32 index]
  let receipt ← confirmWithMessages call messages index
  expectEvent receipt .completedValidatorRemoval (·.id? "validation_id")

/-- Completes a change of weight; gives the validation and the acknowledged nonce. -/
def completeWeightUpdate (manager : ValidatorManager) (messages : List Bytes) (index : UInt32) :
    Operation (ValidationId × UInt64) := do
  let call := callOf manager.address ValidatorManagerContract.completeValidatorWeightUpdate
    [.ofUInt32 index]
  let receipt ← confirmWithMessages call messages index
  expectEvent receipt .completedValidatorWeightUpdate fun event => do
    return (← event.id? "validation_id", ← event.uint64? "nonce")

/-- The requests to register a validation from a block on, with the logs that report them. -/
def registrationHistory (_manager : ValidatorManager) (validation : ValidationId)
    (fromBlock : UInt64) : Operation (List (Event × Log)) := do
  let kind := EventKind.initiatedValidatorRegistration
  let filter : LogFilter := {
    addresses := none
    topics := [kind.signatureHash, validation.hash]
    fromBlock := some fromBlock
    toBlock := none
  }
  match ← ask (.logs filter) with
  | .error cause => throw (.ofCall (.ofNodeError cause))
  | .ok (logs : List Log) =>
    ofExcept (logs.mapM fun log =>
      ((Event.ofLogAs kind log).mapError .undecodable).map fun event => (event, log))

end ValidatorManager
end Valset
