import Valset.Abi.Decode
import Valset.Abi.Encode
import Valset.Validator

/-!
# Structures of the contracts

The tuples in which the contracts take and give owners, conversion data, validation periods,
settings and the state of validators and delegators.
-/

namespace Valset

namespace Owner

/-- The tuple of an owner. -/
def abiType : AbiType :=
  .tuple [.uint 32, .array .address]

/-- An owner as a tuple. -/
def toAbi (owner : Owner) : AbiValue :=
  .tuple [.ofUInt32 owner.threshold, .array (owner.addresses.map .address)]

/-- The owner in a tuple. -/
def ofAbi? : AbiValue → Option Owner
  | .tuple [threshold, addresses] => do
    return {
      threshold := ← threshold.uint32?
      addresses := ← (← addresses.array?).mapM (·.address?)
    }
  | _ => none

end Owner

namespace InitialValidator

/-- The tuple of a validator of the first set. -/
def abiType : AbiType :=
  .tuple [.bytes, .bytes, .uint 64]

/-- A validator of the first set as a tuple. -/
def toAbi (validator : InitialValidator) : AbiValue :=
  .tuple [.bytes validator.nodeId, .bytes validator.blsPublicKey, .ofUInt64 validator.weight]

/-- The validator of the first set in a tuple. -/
def ofAbi? : AbiValue → Option InitialValidator
  | .tuple [nodeId, key, weight] => do
    return { nodeId := ← nodeId.bytes?, blsPublicKey := ← key.bytes?, weight := ← weight.uint64? }
  | _ => none

end InitialValidator

namespace ConversionData

/-- The tuple of conversion data. -/
def abiType : AbiType :=
  .tuple [.fixedBytes 32, .fixedBytes 32, .address, .array InitialValidator.abiType]

/-- Conversion data as a tuple. -/
def toAbi (data : ConversionData) : AbiValue :=
  .tuple [
    .ofFixed data.subnetId.hash,
    .ofFixed data.validatorManagerBlockchainId.hash,
    .address data.validatorManagerAddress,
    .array (data.initialValidators.map InitialValidator.toAbi)]

/-- The conversion data in a tuple. -/
def ofAbi? : AbiValue → Option ConversionData
  | .tuple [subnet, blockchain, manager, validators] => do
    return {
      subnetId := ⟨← subnet.fixed? 32⟩
      validatorManagerBlockchainId := ⟨← blockchain.fixed? 32⟩
      validatorManagerAddress := ← manager.address?
      initialValidators := ← (← validators.array?).mapM InitialValidator.ofAbi?
    }
  | _ => none

end ConversionData

namespace ValidationPeriod

/-- The tuple of a validation period. -/
def abiType : AbiType :=
  .tuple [.fixedBytes 32, .bytes, .bytes, .uint 64, Owner.abiType, Owner.abiType, .uint 64]

/-- A validation period as a tuple. -/
def toAbi (period : ValidationPeriod) : AbiValue :=
  .tuple [
    .ofFixed period.subnetId.hash,
    .bytes period.nodeId,
    .bytes period.blsPublicKey,
    .ofUInt64 period.registrationExpiry,
    period.remainingBalanceOwner.toAbi,
    period.disableOwner.toAbi,
    .ofUInt64 period.weight]

/-- The validation period in a tuple. -/
def ofAbi? : AbiValue → Option ValidationPeriod
  | .tuple [subnet, nodeId, key, expiry, remaining, disable, weight] => do
    return {
      subnetId := ⟨← subnet.fixed? 32⟩
      nodeId := ← nodeId.bytes?
      blsPublicKey := ← key.bytes?
      registrationExpiry := ← expiry.uint64?
      remainingBalanceOwner := ← Owner.ofAbi? remaining
      disableOwner := ← Owner.ofAbi? disable
      weight := ← weight.uint64?
    }
  | _ => none

end ValidationPeriod

namespace StakingSettings

/-- The tuple of the terms of a staking manager. -/
def abiType : AbiType :=
  .tuple [.address, .uint 256, .uint 256, .uint 64, .uint 16, .uint 8, .uint 256, .address,
    .fixedBytes 32]

/-- The terms of a staking manager as a tuple. -/
def toAbi (settings : StakingSettings) : AbiValue :=
  .tuple [
    .address settings.manager,
    .uint settings.minimumStakeAmount,
    .uint settings.maximumStakeAmount,
    .ofUInt64 settings.minimumStakeDuration,
    .ofUInt16 settings.minimumDelegationFeeBips,
    .uint (BitVec.ofNat 256 settings.maximumStakeMultiplier.toNat),
    .uint settings.weightToValueFactor,
    .address settings.rewardCalculator,
    .ofFixed settings.uptimeBlockchainId.hash]

/-- The terms of a staking manager in a tuple. -/
def ofAbi? : AbiValue → Option StakingSettings
  | .tuple
      [manager, minimum, maximum, duration, fee, multiplier, factor, calculator, blockchain] => do
    return {
      manager := ← manager.address?
      minimumStakeAmount := ← minimum.uint?
      maximumStakeAmount := ← maximum.uint?
      minimumStakeDuration := ← duration.uint64?
      minimumDelegationFeeBips := ← fee.uint16?
      maximumStakeMultiplier := ← multiplier.uint8?
      weightToValueFactor := ← factor.uint?
      rewardCalculator := ← calculator.address?
      uptimeBlockchainId := ⟨← blockchain.fixed? 32⟩
    }
  | _ => none

end StakingSettings

namespace StakingValidatorInfo

/-- The tuple of what a staking manager knows about a validator. -/
def abiType : AbiType :=
  .tuple [.address, .uint 16, .uint 64, .uint 64]

/-- What a staking manager knows about a validator, from a tuple. -/
def ofAbi? : AbiValue → Option StakingValidatorInfo
  | .tuple [owner, fee, duration, uptime] => do
    return {
      owner := ← owner.address?
      delegationFeeBips := ← fee.uint16?
      minStakeDuration := ← duration.uint64?
      uptimeSeconds := ← uptime.uint64?
    }
  | _ => none

end StakingValidatorInfo

/-- A validator as the contract holds it, with the code of its status. -/
structure RawValidator where
  status : UInt8
  nodeId : Bytes
  startingWeight : UInt64
  sentNonce : UInt64
  receivedNonce : UInt64
  weight : UInt64
  startTime : UInt64
  endTime : UInt64

namespace RawValidator

/-- The tuple of a validator. -/
def abiType : AbiType :=
  .tuple [.uint 8, .bytes, .uint 64, .uint 64, .uint 64, .uint 64, .uint 64, .uint 64]

/-- The validator in a tuple. -/
def ofAbi? : AbiValue → Option RawValidator
  | .tuple [status, nodeId, starting, sent, received, weight, start, stop] => do
    return {
      status := ← status.uint8?
      nodeId := ← nodeId.bytes?
      startingWeight := ← starting.uint64?
      sentNonce := ← sent.uint64?
      receivedNonce := ← received.uint64?
      weight := ← weight.uint64?
      startTime := ← start.uint64?
      endTime := ← stop.uint64?
    }
  | _ => none

/-- The validator with the meaning of its status, when that has one. -/
def info? (raw : RawValidator) : Option ValidatorInfo := do
  return {
    status := ← ValidatorStatus.ofCode? raw.status
    nodeId := raw.nodeId
    startingWeight := raw.startingWeight
    sentNonce := raw.sentNonce
    receivedNonce := raw.receivedNonce
    weight := raw.weight
    startTime := raw.startTime
    endTime := raw.endTime
  }

end RawValidator

/-- A delegation as the contract holds it, with the code of its status. -/
structure RawDelegator where
  status : UInt8
  owner : Address
  validationId : ValidationId
  weight : UInt64
  startTime : UInt64
  startingNonce : UInt64
  endingNonce : UInt64

namespace RawDelegator

/-- The tuple of a delegation. -/
def abiType : AbiType :=
  .tuple [.uint 8, .address, .fixedBytes 32, .uint 64, .uint 64, .uint 64, .uint 64]

/-- The delegation in a tuple. -/
def ofAbi? : AbiValue → Option RawDelegator
  | .tuple [status, owner, validation, weight, start, starting, ending] => do
    return {
      status := ← status.uint8?
      owner := ← owner.address?
      validationId := ⟨← validation.fixed? 32⟩
      weight := ← weight.uint64?
      startTime := ← start.uint64?
      startingNonce := ← starting.uint64?
      endingNonce := ← ending.uint64?
    }
  | _ => none

/-- The delegation with the meaning of its status, when that has one. -/
def info? (raw : RawDelegator) : Option DelegatorInfo := do
  return {
    status := ← DelegatorStatus.ofCode? raw.status
    owner := raw.owner
    validationId := raw.validationId
    weight := raw.weight
    startTime := raw.startTime
    startingNonce := raw.startingNonce
    endingNonce := raw.endingNonce
  }

end RawDelegator
end Valset
