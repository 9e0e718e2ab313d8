import Valset.Message.Period

/-!
# Validators, delegators and staking settings

What the manager contracts tell about validators and delegators, and the terms under which they
accept new ones.
-/

namespace Valset

/-- Where a validator stands in its life. -/
inductive ValidatorStatus
  | unknown
  | pendingAdded
  | active
  | pendingRemoved
  | completed
  | invalidated
deriving DecidableEq, Repr

/-- Where a delegation stands in its life. -/
inductive DelegatorStatus
  | unknown
  | pendingAdded
  | active
  | pendingRemoved
deriving DecidableEq, Repr

namespace ValidatorStatus

/-- All statuses with their names, in the order of their codes. -/
def names : List (String × ValidatorStatus) :=
  [("Unknown", .unknown), ("PendingAdded", .pendingAdded), ("Active", .active),
    ("PendingRemoved", .pendingRemoved), ("Completed", .completed), ("Invalidated", .invalidated)]

/-- The name of a status. -/
def name : ValidatorStatus → String
  | .unknown => "Unknown"
  | .pendingAdded => "PendingAdded"
  | .active => "Active"
  | .pendingRemoved => "PendingRemoved"
  | .completed => "Completed"
  | .invalidated => "Invalidated"

/-- The status with a code. -/
def ofCode? (code : UInt8) : Option ValidatorStatus :=
  (names[code.toNat]?).map (·.2)

end ValidatorStatus

namespace DelegatorStatus

/-- All statuses with their names, in the order of their codes. -/
def names : List (String × DelegatorStatus) :=
  [("Unknown", .unknown), ("PendingAdded", .pendingAdded), ("Active", .active),
    ("PendingRemoved", .pendingRemoved)]

/-- The name of a status. -/
def name : DelegatorStatus → String
  | .unknown => "Unknown"
  | .pendingAdded => "PendingAdded"
  | .active => "Active"
  | .pendingRemoved => "PendingRemoved"

/-- The status with a code. -/
def ofCode? (code : UInt8) : Option DelegatorStatus :=
  (names[code.toNat]?).map (·.2)

end DelegatorStatus

/-- What a manager knows about a validator. -/
structure ValidatorInfo where
  status : ValidatorStatus
  nodeId : Bytes
  startingWeight : UInt64
  sentNonce : UInt64
  receivedNonce : UInt64
  weight : UInt64
  startTime : UInt64
  endTime : UInt64
deriving DecidableEq

namespace ValidatorInfo

/-- The node id, when it has its usual length. -/
def node? (info : ValidatorInfo) : Option NodeId :=
  (NodeId.ofBytes info.nodeId).toOption

/-- Whether a change of weight was sent to the P-Chain and not acknowledged yet. -/
def hasPendingWeightUpdate (info : ValidatorInfo) : Bool :=
  info.receivedNonce < info.sentNonce

end ValidatorInfo

/-- What a staking manager knows about a delegation. -/
structure DelegatorInfo where
  status : DelegatorStatus
  owner : Address
  validationId : ValidationId
  weight : UInt64
  startTime : UInt64
  startingNonce : UInt64
  endingNonce : UInt64
deriving DecidableEq

/-- What a staking manager knows about a validator beside the set. -/
structure StakingValidatorInfo where
  owner : Address
  delegationFeeBips : UInt16
  minStakeDuration : UInt64
  uptimeSeconds : UInt64
deriving DecidableEq

/-- The terms of a staking manager. -/
structure StakingSettings where
  manager : Address
  minimumStakeAmount : U256
  maximumStakeAmount : U256
  minimumStakeDuration : UInt64
  minimumDelegationFeeBips : UInt16
  maximumStakeMultiplier : UInt8
  weightToValueFactor : U256
  rewardCalculator : Address
  uptimeBlockchainId : BlockchainId
deriving DecidableEq

/-- A reward that is owed, and to whom it will be sent. -/
structure RewardInfo where
  recipient : Address
  amount : U256
deriving DecidableEq

/-- How a staking manager takes stake: as value of the chain's own token or through an allowance. -/
inductive TokenKind
  | native
  | erc20
deriving DecidableEq, Repr

namespace TokenKind

/-- Both kinds with their names. -/
def names : List (String × TokenKind) :=
  [("native", .native), ("erc20", .erc20)]

/-- The name of a kind. -/
def name : TokenKind → String
  | .native => "native"
  | .erc20 => "erc20"

end TokenKind

/-- A request to register a validator with a staking manager. -/
structure ValidatorRegistration where
  nodeId : NodeId
  blsPublicKey : Bytes
  remainingBalanceOwner : Owner
  disableOwner : Owner
  delegationFeeBips : UInt16
  minStakeDuration : UInt64
  stakeAmount : U256
  rewardRecipient : Address
deriving DecidableEq

/-- The highest delegation fee, all of the reward. -/
def maximumDelegationFeeBips : UInt16 := 10000

/-- Why a request is rejected before anything is sent. -/
inductive PreflightError
  | emptyNodeId
  | wrongBlsPublicKey (actual : Nat)
  | delegationFee (fee minimum : UInt16)
  | stakeDuration (duration minimum : UInt64)
  | stakeAmount (amount minimum maximum : U256)
  | zeroDelegation
  | zeroRecipient
  | noWarpMessage (index : UInt32) (given : Nat)
deriving DecidableEq

/-- The wording of a rejection. -/
def PreflightError.message : PreflightError → String
  | .emptyNodeId => "node id is empty"
  | .wrongBlsPublicKey actual =>
    s!"BLS public key is {actual} bytes, expected {blsPublicKeyLength}"
  | .delegationFee fee minimum =>
    s!"delegation fee {fee} bips outside [{minimum}, {maximumDelegationFeeBips}]"
  | .stakeDuration duration minimum =>
    s!"minimum stake duration {duration}s is below the manager minimum of {minimum}s"
  | .stakeAmount amount minimum maximum =>
    s!"stake {amount.toNat} outside [{minimum.toNat}, {maximum.toNat}]"
  | .zeroDelegation => "delegation amount is zero"
  | .zeroRecipient => "reward recipient is the zero address"
  | .noWarpMessage index given => s!"no signed Warp message at index {index}, {given} given"

end Valset
