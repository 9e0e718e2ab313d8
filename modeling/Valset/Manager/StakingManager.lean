import Valset.Manager.Operation
import Valset.Validator.Check

/-!
# Staking managers

Reads the terms and the stakes of a staking manager, and registers, removes and rewards validators
and delegations. A native manager takes stake as value of the transaction; any other one takes an
allowance of its token, which is approved first where it does not suffice.
-/

namespace Valset

/-- A staking manager, how it takes stake, and the account that transactions come from if that is
known. -/
structure StakingManager where
  address : Address
  kind : TokenKind
  sender : Option Address
deriving DecidableEq

namespace StakingManager

open Operation

/-! ## Reading -/

/-- The terms of the manager. -/
def settings (manager : StakingManager) : Operation StakingSettings :=
  readOne manager.address StakingManagerContract.getStakingManagerSettings [] StakingSettings.ofAbi?

/-- What the manager knows about a validator. -/
def stakingValidator (manager : StakingManager) (validation : ValidationId) :
    Operation StakingValidatorInfo :=
  readOne manager.address StakingManagerContract.getStakingValidator [.ofFixed validation.hash]
    StakingValidatorInfo.ofAbi?

/-- The state of a delegation. -/
def delegator (manager : StakingManager) (delegation : DelegationId) :
    Operation DelegatorInfo := do
  let raw ← readOne manager.address StakingManagerContract.getDelegatorInfo
    [.ofFixed delegation.hash] RawDelegator.ofAbi?
  getOrThrow raw.info? (.invalidStatus .delegator raw.status)

/-- Reads a reward. -/
def reward (manager : StakingManager) (function : ContractFunction) (id : Hash32) :
    Operation RewardInfo := do
  match ← read manager.address function [.ofFixed id] with
  | [.address recipient, .uint amount] => return { recipient, amount }
  | _ => throw (.undecodableResult .invalidData)

/-- The reward of a validator. -/
def validatorReward (manager : StakingManager) (validation : ValidationId) :
    Operation RewardInfo :=
  manager.reward StakingManagerContract.getValidatorRewardInfo validation.hash

/-- The reward of a delegation. -/
def delegatorReward (manager : StakingManager) (delegation : DelegationId) :
    Operation RewardInfo :=
  manager.reward StakingManagerContract.getDelegatorRewardInfo delegation.hash

/-- The weight of an amount of stake. -/
def valueToWeight (manager : StakingManager) (value : U256) : Operation UInt64 :=
  readOne manager.address StakingManagerContract.valueToWeight [.uint value] (·.uint64?)

/-- The amount of stake of a weight. -/
def weightToValue (manager : StakingManager) (weight : UInt64) : Operation U256 :=
  readOne manager.address StakingManagerContract.weightToValue [.ofUInt64 weight] (·.uint?)

/-- The token in which stake is taken, unless that is the chain's own. -/
def stakingToken (manager : StakingManager) : Operation (Option Address) :=
  match manager.kind with
  | .native => return none
  | .erc20 => some <$> readOne manager.address StakingManagerContract.erc20 [] (·.address?)

/-! ## Staking -/

/-- Whether the allowance of the sender, if there is a known one, covers an amount. -/
def allowanceCovers (manager : StakingManager) (token : Address) (amount : U256) :
    Operation Bool :=
  match manager.sender with
  | none => return false
  | some sender => do
    let allowance ← readOne token TokenContract.allowance
      [.address sender, .address manager.address] (·.uint?)
    return amount ≤ allowance

/-- Approves that the manager takes an amount of its token, where the allowance does not cover it
yet. -/
def ensureAllowance (manager : StakingManager) (amount : U256) : Operation Unit := do
  match ← manager.stakingToken with
  | none => return
  | some token =>
    if ← manager.allowanceCovers token amount then
      return
    let _ ← confirm (callOf token TokenContract.approve [.address manager.address, .uint amount])

/-- The arguments in front of amount and recipient of a registration. -/
def registrationArguments (request : ValidatorRegistration) : List AbiValue := [
  .bytes request.nodeId.bytes,
  .bytes request.blsPublicKey,
  request.remainingBalanceOwner.toAbi,
  request.disableOwner.toAbi,
  .ofUInt16 request.delegationFeeBips,
  .ofUInt64 request.minStakeDuration]

/-- Registers a validator after checking the request against the terms of the manager; gives the
validation. -/
def initiateValidatorRegistration (manager : StakingManager) (request : ValidatorRegistration) :
    Operation ValidationId := do
  let settings ← manager.settings
  ofExcept (request.check settings)
  let arguments := registrationArguments request
  let receipt ←
    match manager.kind with
    | .native =>
      confirm { callOf manager.address StakingManagerContract.initiateValidatorRegistrationNative
          (arguments ++ [.address request.rewardRecipient]) with value := request.stakeAmount }
    | .erc20 => do
      manager.ensureAllowance request.stakeAmount
      confirm (callOf manager.address StakingManagerContract.initiateValidatorRegistrationErc20
        (arguments ++ [.uint request.stakeAmount, .address request.rewardRecipient]))
  expectEvent receipt .initiatedStakingValidatorRegistration (·.id? "validation_id")

/-- Delegates an amount to a validator; gives the delegation. -/
def initiateDelegatorRegistration (manager : StakingManager) (validation : ValidationId)
    (amount : U256) (recipient : Address) : Operation DelegationId := do
  ofExcept (checkRecipient recipient)
  ofExcept (ensure (amount != 0) .zeroDelegation)
  let receipt ←
    match manager.kind with
    | .native =>
      confirm { callOf manager.address StakingManagerContract.initiateDelegatorRegistrationNative
          [.ofFixed validation.hash, .address recipient] with value := amount }
    | .erc20 => do
      manager.ensureAllowance amount
      confirm (callOf manager.address StakingManagerContract.initiateDelegatorRegistrationErc20
        [.ofFixed validation.hash, .uint amount, .address recipient])
  expectEvent receipt .initiatedDelegatorRegistration (·.id? "delegation_id")

/-! ## Completions -/

/-- Completes the registration of a validator; gives the validation. -/
def completeValidatorRegistration (manager : StakingManager) (messages : List Bytes)
    (index : UInt32) : Operation ValidationId := do
  let call := callOf manager.address ValidatorManagerContract.completeValidatorRegistration
    [.ofUInt32 index]
  let receipt ← confirmWithMessages call messages index
  expectEvent receipt .completedValidatorRegistration (·.id? "validation_id")

/-- Completes the removal of a validator; gives the validation. -/
def completeValidatorRemoval (manager : StakingManager) (messages : List Bytes) (index : UInt32) :
    Operation ValidationId := do
  let call := callOf manager.address ValidatorManagerContract.completeValidatorRemoval
    [.ofUInt32 index]
  let receipt ← confirmWithMessages call messages index
  expectEvent receipt .completedValidatorRemoval (·.id? "validation_id")

/-- Completes the start of a delegation. -/
def completeDelegatorRegistration (manager : StakingManager) (delegation : DelegationId)
    (messages : List Bytes) (index : UInt32) : Operation Unit := do
  let call := callOf manager.address StakingManagerContract.completeDelegatorRegistration
    [.ofFixed delegation.hash, .ofUInt32 index]
  let _ ← confirmWithMessages call messages index

/-- Completes the end of a delegation; gives the rewards of the delegator and the fees of the
validator. -/
def completeDelegatorRemoval (manager : StakingManager) (delegation : DelegationId)
    (messages : List Bytes) (index : UInt32) : Operation (U256 × U256) := do
  let call := callOf manager.address StakingManagerContract.completeDelegatorRemoval
    [.ofFixed delegation.hash, .ofUInt32 index]
  let receipt ← confirmWithMessages call messages index
  expectEvent receipt .completedDelegatorRemoval fun event => do
    return (← event.uint? "rewards", ← event.uint? "fees")

/-! ## Removals -/

/-- A removal, which carries the signed uptime message only if it is to be included. -/
structure Removal where
  includeUptimeProof : Bool
  messages : List Bytes
  index : UInt32
  force : Bool

/-- Sends a removal. -/
def confirmRemoval (manager : StakingManager) (function : ContractFunction) (id : Hash32)
    (removal : Removal) : Operation Unit := do
  let call := callOf manager.address function
    [.ofFixed id, .bool removal.includeUptimeProof, .ofUInt32 removal.index]
  let _ ←
    if removal.includeUptimeProof then confirmWithMessages call removal.messages removal.index
    else confirm call

/-- Removes a validator; a forced removal gives up rewards that are not due. -/
def initiateValidatorRemoval (manager : StakingManager) (validation : ValidationId)
    (removal : Removal) : Operation Unit :=
  manager.confirmRemoval
    (if removal.force then StakingManagerContract.forceInitiateValidatorRemoval
      else StakingManagerContract.initiateValidatorRemoval) validation.hash removal

/-- Ends a delegation; a forced end gives up rewards that are not due. -/
def initiateDelegatorRemoval (manager : StakingManager) (delegation : DelegationId)
    (removal : Removal) : Operation Unit :=
  manager.confirmRemoval
    (if removal.force then StakingManagerContract.forceInitiateDelegatorRemoval
      else StakingManagerContract.initiateDelegatorRemoval) delegation.hash removal

/-! ## Uptime and rewards -/

/-- Sends the change of weight of a delegation once more. -/
def resendUpdateDelegator (manager : StakingManager) (delegation : DelegationId) :
    Operation Unit := do
  let _ ← confirm (callOf manager.address StakingManagerContract.resendUpdateDelegator
    [.ofFixed delegation.hash])

/-- Submits a signed uptime message; gives the new uptime if it was raised. -/
def submitUptimeProof (manager : StakingManager) (validation : ValidationId)
    (messages : List Bytes) (index : UInt32) : Operation (Option UInt64) := do
  let call := callOf manager.address StakingManagerContract.submitUptimeProof
    [.ofFixed validation.hash, .ofUInt32 index]
  let receipt ← confirmWithMessages call messages index
  return (receipt.events .uptimeUpdated).head?.bind (·.uint64? "uptime")

/-- Pays out the delegation fees of a validator. -/
def claimDelegationFees (manager : StakingManager) (validation : ValidationId) :
    Operation Unit := do
  let _ ← confirm (callOf manager.address StakingManagerContract.claimDelegationFees
    [.ofFixed validation.hash])

/-- Changes who receives the reward of a validator. -/
def changeValidatorRewardRecipient (manager : StakingManager) (validation : ValidationId)
    (recipient : Address) : Operation Unit := do
  ofExcept (checkRecipient recipient)
  let _ ← confirm (callOf manager.address StakingManagerContract.changeValidatorRewardRecipient
    [.ofFixed validation.hash, .address recipient])

/-- Changes who receives the reward of a delegation. -/
def changeDelegatorRewardRecipient (manager : StakingManager) (delegation : DelegationId)
    (recipient : Address) : Operation Unit := do
  ofExcept (checkRecipient recipient)
  let _ ← confirm (callOf manager.address StakingManagerContract.changeDelegatorRewardRecipient
    [.ofFixed delegation.hash, .address recipient])

end StakingManager
end Valset
