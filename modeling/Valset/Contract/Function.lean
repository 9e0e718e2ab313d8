import Valset.Contract.Structs

/-!
# Functions of the contracts

The functions that are called, with the types of their arguments and results.
-/

namespace Valset

/-- A function of a contract. -/
structure ContractFunction where
  name : String
  inputs : List AbiType
  outputs : List AbiType

namespace ContractFunction

/-- The four bytes that name a function in call data. -/
def selector (function : ContractFunction) : Bytes :=
  selectorOf (AbiType.signature function.name function.inputs)

/-- The data of a call with arguments. -/
def callData (function : ContractFunction) (arguments : List AbiValue) : Bytes :=
  function.selector ++ Abi.encode arguments

end ContractFunction

/-! ## The validator manager -/

namespace ValidatorManagerContract

/-- Completes a registration with a message of the P-Chain. -/
def completeValidatorRegistration : ContractFunction :=
  ⟨"completeValidatorRegistration", [.uint 32], [.fixedBytes 32]⟩

/-- Completes a removal with a message of the P-Chain. -/
def completeValidatorRemoval : ContractFunction :=
  ⟨"completeValidatorRemoval", [.uint 32], [.fixedBytes 32]⟩

/-- Completes a change of weight with a message of the P-Chain. -/
def completeValidatorWeightUpdate : ContractFunction :=
  ⟨"completeValidatorWeightUpdate", [.uint 32], [.fixedBytes 32, .uint 64]⟩

/-- The validation id of a node. -/
def getNodeValidationId : ContractFunction :=
  ⟨"getNodeValidationID", [.bytes], [.fixedBytes 32]⟩

/-- The state of a validator. -/
def getValidator : ContractFunction :=
  ⟨"getValidator", [.fixedBytes 32], [RawValidator.abiType]⟩

/-- Sets up the first validator set. -/
def initializeValidatorSet : ContractFunction :=
  ⟨"initializeValidatorSet", [ConversionData.abiType, .uint 32], []⟩

/-- The weight of all validators together. -/
def l1TotalWeight : ContractFunction :=
  ⟨"l1TotalWeight", [], [.uint 64]⟩

/-- The subnet that is managed. -/
def subnetId : ContractFunction :=
  ⟨"subnetID", [], [.fixedBytes 32]⟩

end ValidatorManagerContract

/-! ## The staking managers -/

namespace StakingManagerContract

/-- Changes who receives the reward of a delegation. -/
def changeDelegatorRewardRecipient : ContractFunction :=
  ⟨"changeDelegatorRewardRecipient", [.fixedBytes 32, .address], []⟩

/-- Changes who receives the reward of a validator. -/
def changeValidatorRewardRecipient : ContractFunction :=
  ⟨"changeValidatorRewardRecipient", [.fixedBytes 32, .address], []⟩

/-- Pays out the delegation fees of a validator. -/
def claimDelegationFees : ContractFunction :=
  ⟨"claimDelegationFees", [.fixedBytes 32], []⟩

/-- Completes a delegation with a message of the P-Chain. -/
def completeDelegatorRegistration : ContractFunction :=
  ⟨"completeDelegatorRegistration", [.fixedBytes 32, .uint 32], []⟩

/-- Completes the end of a delegation with a message of the P-Chain. -/
def completeDelegatorRemoval : ContractFunction :=
  ⟨"completeDelegatorRemoval", [.fixedBytes 32, .uint 32], []⟩

/-- Ends a delegation even without a reward. -/
def forceInitiateDelegatorRemoval : ContractFunction :=
  ⟨"forceInitiateDelegatorRemoval", [.fixedBytes 32, .bool, .uint 32], []⟩

/-- Removes a validator even without a reward. -/
def forceInitiateValidatorRemoval : ContractFunction :=
  ⟨"forceInitiateValidatorRemoval", [.fixedBytes 32, .bool, .uint 32], []⟩

/-- Ends a delegation. -/
def initiateDelegatorRemoval : ContractFunction :=
  ⟨"initiateDelegatorRemoval", [.fixedBytes 32, .bool, .uint 32], []⟩

/-- Removes a validator. -/
def initiateValidatorRemoval : ContractFunction :=
  ⟨"initiateValidatorRemoval", [.fixedBytes 32, .bool, .uint 32], []⟩

/-- Sends the change of weight of a delegation once more. -/
def resendUpdateDelegator : ContractFunction :=
  ⟨"resendUpdateDelegator", [.fixedBytes 32], []⟩

/-- Records the uptime of a validator. -/
def submitUptimeProof : ContractFunction :=
  ⟨"submitUptimeProof", [.fixedBytes 32, .uint 32], []⟩

/-- The state of a delegation. -/
def getDelegatorInfo : ContractFunction :=
  ⟨"getDelegatorInfo", [.fixedBytes 32], [RawDelegator.abiType]⟩

/-- The reward of a delegation. -/
def getDelegatorRewardInfo : ContractFunction :=
  ⟨"getDelegatorRewardInfo", [.fixedBytes 32], [.address, .uint 256]⟩

/-- The terms of the manager. -/
def getStakingManagerSettings : ContractFunction :=
  ⟨"getStakingManagerSettings", [], [StakingSettings.abiType]⟩

/-- The staking state of a validator. -/
def getStakingValidator : ContractFunction :=
  ⟨"getStakingValidator", [.fixedBytes 32], [StakingValidatorInfo.abiType]⟩

/-- The reward of a validator. -/
def getValidatorRewardInfo : ContractFunction :=
  ⟨"getValidatorRewardInfo", [.fixedBytes 32], [.address, .uint 256]⟩

/-- The weight of an amount of stake. -/
def valueToWeight : ContractFunction :=
  ⟨"valueToWeight", [.uint 256], [.uint 64]⟩

/-- The amount of stake of a weight. -/
def weightToValue : ContractFunction :=
  ⟨"weightToValue", [.uint 64], [.uint 256]⟩

/-- Registers a validator whose stake is the value of the call. -/
def initiateValidatorRegistrationNative : ContractFunction :=
  ⟨"initiateValidatorRegistration",
    [.bytes, .bytes, Owner.abiType, Owner.abiType, .uint 16, .uint 64, .address], [.fixedBytes 32]⟩

/-- Registers a validator whose stake is taken from an allowance. -/
def initiateValidatorRegistrationErc20 : ContractFunction :=
  ⟨"initiateValidatorRegistration",
    [.bytes, .bytes, Owner.abiType, Owner.abiType, .uint 16, .uint 64, .uint 256, .address],
    [.fixedBytes 32]⟩

/-- Delegates the value of the call. -/
def initiateDelegatorRegistrationNative : ContractFunction :=
  ⟨"initiateDelegatorRegistration", [.fixedBytes 32, .address], [.fixedBytes 32]⟩

/-- Delegates an amount taken from an allowance. -/
def initiateDelegatorRegistrationErc20 : ContractFunction :=
  ⟨"initiateDelegatorRegistration", [.fixedBytes 32, .uint 256, .address], [.fixedBytes 32]⟩

/-- The token in which stake is taken. -/
def erc20 : ContractFunction :=
  ⟨"erc20", [], [.address]⟩

end StakingManagerContract

/-! ## The token -/

namespace TokenContract

/-- The amount that one account may take from another. -/
def allowance : ContractFunction :=
  ⟨"allowance", [.address, .address], [.uint 256]⟩

/-- Lets an account take an amount. -/
def approve : ContractFunction :=
  ⟨"approve", [.address, .uint 256], [.bool]⟩

end TokenContract

/-! ## The message library -/

namespace MessageLibraryContract

/-- Packs conversion data. -/
def packConversionData : ContractFunction :=
  ⟨"packConversionData", [ConversionData.abiType], [.bytes]⟩

/-- Packs a registration message. -/
def packL1ValidatorRegistrationMessage : ContractFunction :=
  ⟨"packL1ValidatorRegistrationMessage", [.fixedBytes 32, .bool], [.bytes]⟩

/-- Packs a weight message. -/
def packL1ValidatorWeightMessage : ContractFunction :=
  ⟨"packL1ValidatorWeightMessage", [.fixedBytes 32, .uint 64, .uint 64], [.bytes]⟩

/-- Packs a register message. -/
def packRegisterL1ValidatorMessage : ContractFunction :=
  ⟨"packRegisterL1ValidatorMessage", [ValidationPeriod.abiType], [.fixedBytes 32, .bytes]⟩

/-- Packs a conversion message. -/
def packSubnetToL1ConversionMessage : ContractFunction :=
  ⟨"packSubnetToL1ConversionMessage", [.fixedBytes 32], [.bytes]⟩

/-- Packs an uptime message. -/
def packValidationUptimeMessage : ContractFunction :=
  ⟨"packValidationUptimeMessage", [.fixedBytes 32, .uint 64], [.bytes]⟩

/-- Unpacks a registration message. -/
def unpackL1ValidatorRegistrationMessage : ContractFunction :=
  ⟨"unpackL1ValidatorRegistrationMessage", [.bytes], [.fixedBytes 32, .bool]⟩

/-- Unpacks a weight message. -/
def unpackL1ValidatorWeightMessage : ContractFunction :=
  ⟨"unpackL1ValidatorWeightMessage", [.bytes], [.fixedBytes 32, .uint 64, .uint 64]⟩

/-- Unpacks a register message. -/
def unpackRegisterL1ValidatorMessage : ContractFunction :=
  ⟨"unpackRegisterL1ValidatorMessage", [.bytes], [ValidationPeriod.abiType]⟩

/-- Unpacks a conversion message. -/
def unpackSubnetToL1ConversionMessage : ContractFunction :=
  ⟨"unpackSubnetToL1ConversionMessage", [.bytes], [.fixedBytes 32]⟩

/-- Unpacks an uptime message. -/
def unpackValidationUptimeMessage : ContractFunction :=
  ⟨"unpackValidationUptimeMessage", [.bytes], [.fixedBytes 32, .uint 64]⟩

end MessageLibraryContract
end Valset
