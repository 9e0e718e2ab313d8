import Valset.Message.Json
import Valset.Validator

/-!
# Validators, delegators and settings in JSON

Statuses and kinds stand in JSON as their names, amounts as hexadecimal texts.
-/

namespace Valset

/-- A status as JSON. -/
def ValidatorStatus.toJson (status : ValidatorStatus) : Json :=
  .string status.name

/-- Reads a status. -/
def ValidatorStatus.ofJson? : Json.Reader ValidatorStatus :=
  Json.readName names

/-- A status as JSON. -/
def DelegatorStatus.toJson (status : DelegatorStatus) : Json :=
  .string status.name

/-- Reads a status. -/
def DelegatorStatus.ofJson? : Json.Reader DelegatorStatus :=
  Json.readName names

/-- A kind of stake as JSON. -/
def TokenKind.toJson (kind : TokenKind) : Json :=
  .string kind.name

/-- Reads a kind of stake. -/
def TokenKind.ofJson? : Json.Reader TokenKind :=
  Json.readName names

namespace ValidatorInfo

/-- The names of the fields in JSON. -/
def fieldNames : List String :=
  ["status", "nodeId", "startingWeight", "sentNonce", "receivedNonce", "weight", "startTime",
    "endTime"]

/-- The state of a validator as JSON. -/
def toJson (info : ValidatorInfo) : Json :=
  .object [
    ("status", info.status.toJson),
    ("nodeId", .ofBytes info.nodeId),
    ("startingWeight", .ofUInt64 info.startingWeight),
    ("sentNonce", .ofUInt64 info.sentNonce),
    ("receivedNonce", .ofUInt64 info.receivedNonce),
    ("weight", .ofUInt64 info.weight),
    ("startTime", .ofUInt64 info.startTime),
    ("endTime", .ofUInt64 info.endTime)]

/-- Reads the state of a validator. -/
def ofJson? : Json.Reader ValidatorInfo := fun json => do
  let source ← Json.source? fieldNames json
  return {
    status := ← source.required "status" ValidatorStatus.ofJson?
    nodeId := ← source.required "nodeId" Json.readBytes
    startingWeight := ← source.required "startingWeight" Json.readUInt64
    sentNonce := ← source.required "sentNonce" Json.readUInt64
    receivedNonce := ← source.required "receivedNonce" Json.readUInt64
    weight := ← source.required "weight" Json.readUInt64
    startTime := ← source.required "startTime" Json.readUInt64
    endTime := ← source.required "endTime" Json.readUInt64
  }

end ValidatorInfo

namespace DelegatorInfo

/-- The names of the fields in JSON. -/
def fieldNames : List String :=
  ["status", "owner", "validationId", "weight", "startTime", "startingNonce", "endingNonce"]

/-- The state of a delegation as JSON. -/
def toJson (info : DelegatorInfo) : Json :=
  .object [
    ("status", info.status.toJson),
    ("owner", .ofFixed info.owner),
    ("validationId", info.validationId.toJson),
    ("weight", .ofUInt64 info.weight),
    ("startTime", .ofUInt64 info.startTime),
    ("startingNonce", .ofUInt64 info.startingNonce),
    ("endingNonce", .ofUInt64 info.endingNonce)]

/-- Reads the state of a delegation. -/
def ofJson? : Json.Reader DelegatorInfo := fun json => do
  let source ← Json.source? fieldNames json
  return {
    status := ← source.required "status" DelegatorStatus.ofJson?
    owner := ← source.required "owner" Json.readAddress
    validationId := ← source.required "validationId" Id.ofJson?
    weight := ← source.required "weight" Json.readUInt64
    startTime := ← source.required "startTime" Json.readUInt64
    startingNonce := ← source.required "startingNonce" Json.readUInt64
    endingNonce := ← source.required "endingNonce" Json.readUInt64
  }

end DelegatorInfo

namespace StakingValidatorInfo

/-- What a staking manager knows about a validator, as JSON. -/
def toJson (info : StakingValidatorInfo) : Json :=
  .object [
    ("owner", .ofFixed info.owner),
    ("delegationFeeBips", .ofNat info.delegationFeeBips.toNat),
    ("minStakeDuration", .ofUInt64 info.minStakeDuration),
    ("uptimeSeconds", .ofUInt64 info.uptimeSeconds)]

/-- Reads what a staking manager knows about a validator. -/
def ofJson? : Json.Reader StakingValidatorInfo := fun json => do
  let source ←
    Json.source? ["owner", "delegationFeeBips", "minStakeDuration", "uptimeSeconds"] json
  return {
    owner := ← source.required "owner" Json.readAddress
    delegationFeeBips := ← source.required "delegationFeeBips" Json.readUInt16
    minStakeDuration := ← source.required "minStakeDuration" Json.readUInt64
    uptimeSeconds := ← source.required "uptimeSeconds" Json.readUInt64
  }

end StakingValidatorInfo

namespace StakingSettings

/-- The names of the fields in JSON. -/
def fieldNames : List String :=
  ["manager", "minimumStakeAmount", "maximumStakeAmount", "minimumStakeDuration",
    "minimumDelegationFeeBips", "maximumStakeMultiplier", "weightToValueFactor",
    "rewardCalculator", "uptimeBlockchainId"]

/-- The terms of a staking manager as JSON. -/
def toJson (settings : StakingSettings) : Json :=
  .object [
    ("manager", .ofFixed settings.manager),
    ("minimumStakeAmount", .ofU256 settings.minimumStakeAmount),
    ("maximumStakeAmount", .ofU256 settings.maximumStakeAmount),
    ("minimumStakeDuration", .ofUInt64 settings.minimumStakeDuration),
    ("minimumDelegationFeeBips", .ofNat settings.minimumDelegationFeeBips.toNat),
    ("maximumStakeMultiplier", .ofNat settings.maximumStakeMultiplier.toNat),
    ("weightToValueFactor", .ofU256 settings.weightToValueFactor),
    ("rewardCalculator", .ofFixed settings.rewardCalculator),
    ("uptimeBlockchainId", settings.uptimeBlockchainId.toJson)]

/-- Reads the terms of a staking manager. -/
def ofJson? : Json.Reader StakingSettings := fun json => do
  let source ← Json.source? fieldNames json
  return {
    manager := ← source.required "manager" Json.readAddress
    minimumStakeAmount := ← source.required "minimumStakeAmount" Json.readU256
    maximumStakeAmount := ← source.required "maximumStakeAmount" Json.readU256
    minimumStakeDuration := ← source.required "minimumStakeDuration" Json.readUInt64
    minimumDelegationFeeBips := ← source.required "minimumDelegationFeeBips" Json.readUInt16
    maximumStakeMultiplier := ← source.required "maximumStakeMultiplier" Json.readUInt8
    weightToValueFactor := ← source.required "weightToValueFactor" Json.readU256
    rewardCalculator := ← source.required "rewardCalculator" Json.readAddress
    uptimeBlockchainId := ← source.required "uptimeBlockchainId" Id.ofJson?
  }

end StakingSettings

namespace RewardInfo

/-- A reward as JSON. -/
def toJson (reward : RewardInfo) : Json :=
  .object [("recipient", .ofFixed reward.recipient), ("amount", .ofU256 reward.amount)]

/-- Reads a reward. -/
def ofJson? : Json.Reader RewardInfo := fun json => do
  let source ← Json.source? ["recipient", "amount"] json
  return {
    recipient := ← source.required "recipient" Json.readAddress
    amount := ← source.required "amount" Json.readU256
  }

end RewardInfo

namespace ValidatorRegistration

/-- The names of the fields in JSON. -/
def fieldNames : List String :=
  ["nodeId", "blsPublicKey", "remainingBalanceOwner", "disableOwner", "delegationFeeBips",
    "minStakeDuration", "stakeAmount", "rewardRecipient"]

/-- A request as JSON. -/
def toJson (request : ValidatorRegistration) : Json :=
  .object [
    ("nodeId", request.nodeId.toJson),
    ("blsPublicKey", .ofBytes request.blsPublicKey),
    ("remainingBalanceOwner", request.remainingBalanceOwner.toJson),
    ("disableOwner", request.disableOwner.toJson),
    ("delegationFeeBips", .ofNat request.delegationFeeBips.toNat),
    ("minStakeDuration", .ofUInt64 request.minStakeDuration),
    ("stakeAmount", .ofU256 request.stakeAmount),
    ("rewardRecipient", .ofFixed request.rewardRecipient)]

/-- Reads a request. -/
def ofJson? : Json.Reader ValidatorRegistration := fun json => do
  let source ← Json.source? fieldNames json
  return {
    nodeId := ← source.required "nodeId" NodeId.ofJson?
    blsPublicKey := ← source.required "blsPublicKey" Json.readBytes
    remainingBalanceOwner := ← source.required "remainingBalanceOwner" Owner.ofJson?
    disableOwner := ← source.required "disableOwner" Owner.ofJson?
    delegationFeeBips := ← source.required "delegationFeeBips" Json.readUInt16
    minStakeDuration := ← source.required "minStakeDuration" Json.readUInt64
    stakeAmount := ← source.required "stakeAmount" Json.readU256
    rewardRecipient := ← source.required "rewardRecipient" Json.readAddress
  }

end ValidatorRegistration
end Valset
