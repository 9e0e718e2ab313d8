import Valset.CommandLine.Context
import Valset.CommandLine.Readers
import Valset.Validator.Json

/-!
# Commands on stakes

Reading the terms and stakes of a staking manager, and staking, delegating, removing and rewarding.
-/

namespace Valset

/-- A request to register a validator as it is given on the command line. Owners may stand in any
order, and what is missing follows from the rest. -/
structure RegistrationRequest where
  node : NodeId
  blsPublicKey : Bytes
  stake : U256
  delegationFeeBips : UInt16
  minStakeDuration : UInt64
  owners : List Address
  ownerThreshold : UInt32
  disableOwners : List Address
  disableThreshold : Option UInt32
  rewardRecipient : Option Address

/-- A removal as it is given on the command line. -/
structure RemovalRequest where
  includeUptimeProof : Bool
  signed : SignedMessages
  force : Bool

/-- What a reward is paid for. -/
inductive RewardTarget
  | validation (id : ValidationId)
  | delegation (id : DelegationId)

/-- A command on stakes. -/
inductive StakingCommand
  | settings
  | validator (validation : ValidationId)
  | delegator (delegation : DelegationId)
  | registerValidator (request : RegistrationRequest)
  | registerDelegator (validation : ValidationId) (amount : U256)
      (rewardRecipient : Option Address)
  | completeValidatorRegistration (signed : SignedMessages)
  | completeDelegatorRegistration (delegation : DelegationId) (signed : SignedMessages)
  | removeValidator (validation : ValidationId) (request : RemovalRequest)
  | completeValidatorRemoval (signed : SignedMessages)
  | removeDelegator (delegation : DelegationId) (request : RemovalRequest)
  | completeDelegatorRemoval (delegation : DelegationId) (signed : SignedMessages)
  | submitUptime (validation : ValidationId) (signed : SignedMessages)
  | claimFees (validation : ValidationId)
  | setRewardRecipient (recipient : Address) (target : RewardTarget)
  | resendDelegatorUpdate (delegation : DelegationId)

open CommandLine CommandProgram

namespace RegistrationRequest

/-- The arguments of a request. -/
def arguments : Arguments RegistrationRequest :=
  RegistrationRequest.mk <$> .required (.option "node-id") .node <*>
    .required (.option "bls-public-key") .bytes <*>
    .required (.option "stake") .amount <*>
    .required (.option "delegation-fee-bips") .uint16 <*>
    .required (.option "min-stake-duration") .uint64 <*>
    .many { Argument.option "owner" with need := .always } .owner <*>
    .withDefault (.option "owner-threshold") .uint32 1 <*>
    .many (.option "disable-owner") .owner <*>
    .optional (.option "disable-threshold") .uint32 <*>
    .optional (.option "reward-recipient") .address

/-- The owner who gets what remains. -/
def remainingBalanceOwner (request : RegistrationRequest) : Except MessageError Owner :=
  Owner.normalized { threshold := request.ownerThreshold, addresses := request.owners }

/-- The owner who may disable the validator: the same one unless other addresses are given. -/
def disableOwner (request : RegistrationRequest) : Except MessageError Owner :=
  Owner.normalized
    (if request.disableOwners.isEmpty then
      { threshold := request.disableThreshold.getD request.ownerThreshold
        addresses := request.owners }
    else
      { threshold := request.disableThreshold.getD 1
        addresses := request.disableOwners })

/-- The registration that is asked for. Rewards go to the given account if no other one is named. -/
def toRegistration (request : RegistrationRequest) (remaining disable : Owner)
    (account : Address) : ValidatorRegistration where
  nodeId := request.node
  blsPublicKey := request.blsPublicKey
  remainingBalanceOwner := remaining
  disableOwner := disable
  delegationFeeBips := request.delegationFeeBips
  minStakeDuration := request.minStakeDuration
  stakeAmount := request.stake
  rewardRecipient := request.rewardRecipient.getD account

end RegistrationRequest

namespace RemovalRequest

/-- The arguments of a removal. -/
def arguments : Arguments RemovalRequest :=
  RemovalRequest.mk <$> .flag (.flag "include-uptime-proof") <*> SignedMessages.arguments <*>
    .flag (.flag "force")

/-- The removal that is asked for. -/
def toRemoval (request : RemovalRequest) : StakingManager.Removal where
  includeUptimeProof := request.includeUptimeProof
  messages := request.signed.messages
  index := request.signed.index
  force := request.force

end RemovalRequest

namespace RewardTarget

/-- Exactly one of two optional targets. -/
def ofOptions (validation : Option ValidationId) (delegation : Option DelegationId) :
    Option RewardTarget :=
  (validation.map .validation) <|> (delegation.map .delegation)

/-- The arguments that name a target; one of the two must be given, and not both. -/
def arguments : Arguments RewardTarget :=
  let either := { Argument.option "validation-id" with
    need := .unless "delegation-id", rivals := ["delegation-id"] }
  .ofOption (ofOptions <$> .optional either .id <*>
    .optional (.option "delegation-id") .id)

end RewardTarget

namespace StakingCommand

/-- What the commands accept. -/
def usage : List (String × Arguments StakingCommand) :=
  let validation : Arguments ValidationId := .required (.position "validation-id") .id
  let delegation : Arguments DelegationId := .required (.position "delegation-id") .id
  [ ("settings", pure settings),
    ("validator", validator <$> validation),
    ("delegator", delegator <$> delegation),
    ("register-validator", registerValidator <$> RegistrationRequest.arguments),
    ("register-delegator", registerDelegator <$> validation <*>
      .required (.option "amount") .amount <*> .optional (.option "reward-recipient") .address),
    ("complete-validator-registration",
      completeValidatorRegistration <$> SignedMessages.arguments),
    ("complete-delegator-registration",
      completeDelegatorRegistration <$> delegation <*> SignedMessages.arguments),
    ("remove-validator", removeValidator <$> validation <*> RemovalRequest.arguments),
    ("complete-validator-removal", completeValidatorRemoval <$> SignedMessages.arguments),
    ("remove-delegator", removeDelegator <$> delegation <*> RemovalRequest.arguments),
    ("complete-delegator-removal",
      completeDelegatorRemoval <$> delegation <*> SignedMessages.arguments),
    ("submit-uptime", submitUptime <$> validation <*> SignedMessages.arguments),
    ("claim-fees", claimFees <$> validation),
    ("set-reward-recipient", setRewardRecipient <$>
      .required (.position "recipient") .address <*> RewardTarget.arguments),
    ("resend-delegator-update", resendDelegatorUpdate <$> delegation)]

/-- Asks the manager something. -/
def inquire {α : Type} (context : Context) (operation : StakingManager → Operation α) :
    CommandProgram α := do
  let endpoint ← ofExcept context.reader
  let manager ← ofExcept (context.stakingManager none)
  operate endpoint (operation manager)

/-- Changes something at the manager; the account that signs is passed on. -/
def change {α : Type} (context : Context)
    (operation : StakingManager → Address → Operation α) : CommandProgram α := do
  let (endpoint, account) ← context.signer
  let manager ← ofExcept (context.stakingManager (some account))
  operate endpoint (operation manager account)

/-- Prints the way in which a manager takes stake and its terms. -/
def printSettings (context : Context) : CommandProgram Unit := do
  let endpoint ← ofExcept context.reader
  let manager ← ofExcept (context.stakingManager none)
  printLine s!"Token: {manager.kind.name}"
  match ← operate endpoint manager.stakingToken with
  | some token => printLine s!"Staking token: {token.toHex}"
  | none => pure ()
  printJson (← operate endpoint manager.settings).toJson

/-- Carries a command out. -/
def run (context : Context) : StakingCommand → CommandProgram Unit
  | settings => printSettings context
  | validator validation => do
    printJson (← inquire context (·.stakingValidator validation)).toJson
    printJson (← inquire context (·.validatorReward validation)).toJson
  | delegator delegation => do
    printJson (← inquire context (·.delegator delegation)).toJson
    printJson (← inquire context (·.delegatorReward delegation)).toJson
  | registerValidator request => do
    let remaining ← ofExcept (request.remainingBalanceOwner.mapError .message)
    let disable ← ofExcept (request.disableOwner.mapError .message)
    let validation ← change context fun manager account =>
      manager.initiateValidatorRegistration (request.toRegistration remaining disable account)
    printLine s!"Registration of {request.node.display} initiated: {validation.display}"
  | registerDelegator validation amount rewardRecipient => do
    let delegation ← change context fun manager account =>
      manager.initiateDelegatorRegistration validation amount (rewardRecipient.getD account)
    printLine s!"Delegation to {validation.display} initiated: {delegation.display}"
  | completeValidatorRegistration signed => do
    let validation ← change context fun manager _ =>
      manager.completeValidatorRegistration signed.messages signed.index
    printLine s!"Registered {validation.display}"
  | completeDelegatorRegistration delegation signed => do
    change context fun manager _ =>
      manager.completeDelegatorRegistration delegation signed.messages signed.index
    printLine s!"Delegation {delegation.display} active"
  | removeValidator validation request => do
    change context fun manager _ => manager.initiateValidatorRemoval validation request.toRemoval
    printLine s!"Removal of {validation.display} initiated"
  | completeValidatorRemoval signed => do
    let validation ← change context fun manager _ =>
      manager.completeValidatorRemoval signed.messages signed.index
    printLine s!"Removed {validation.display}"
  | removeDelegator delegation request => do
    change context fun manager _ => manager.initiateDelegatorRemoval delegation request.toRemoval
    printLine s!"Removal of delegation {delegation.display} initiated"
  | completeDelegatorRemoval delegation signed => do
    let (rewards, fees) ← change context fun manager _ =>
      manager.completeDelegatorRemoval delegation signed.messages signed.index
    printLine (s!"Delegation {delegation.display} ended. " ++
      s!"Rewards {rewards.toNat} wei, fees {fees.toNat} wei")
  | submitUptime validation signed => do
    let raised ← change context fun manager _ =>
      manager.submitUptimeProof validation signed.messages signed.index
    match raised with
    | some uptime => printLine s!"Uptime of {validation.display} is now {uptime}s"
    | none => printLine s!"Uptime of {validation.display} unchanged"
  | claimFees validation => do
    change context fun manager _ => manager.claimDelegationFees validation
    printLine s!"Delegation fees of {validation.display} claimed"
  | setRewardRecipient recipient target => do
    change context fun manager _ =>
      (match target with
        | .validation id => manager.changeValidatorRewardRecipient id recipient
        | .delegation id => manager.changeDelegatorRewardRecipient id recipient)
    printLine s!"Rewards now go to {recipient.toHex}"
  | resendDelegatorUpdate delegation => do
    change context fun manager _ => manager.resendUpdateDelegator delegation
    printLine s!"Weight update of delegation {delegation.display} resent"

end StakingCommand
end Valset
