import Valset.Message.Packed

/-!
# Conversion data

The validator set with which a subnet is converted. Its packed form is hashed into the conversion id
that the P-Chain commits to.
-/

namespace Valset

/-- The codec of all packed forms. -/
def codecId : UInt16 := 0

/-- The length of the public keys of validators. -/
def blsPublicKeyLength : Nat := 48

/-- The length of an address, which packed conversion data names. -/
def addressLength : UInt32 := 20

/-- Checks the length of a public key. -/
def checkBlsPublicKey (key : Bytes) : Except MessageError Unit :=
  if key.length = blsPublicKeyLength then .ok () else .error .invalidBlsPublicKey

/-- Reads the codec id. -/
def takeCodecId : Packed.Reading Unit := do
  let codec ← Packed.takeU16
  if codec ≠ codecId then
    throw (.invalidCodecId codec.toUInt32)

/-- A validator of the first set. -/
structure InitialValidator where
  nodeId : Bytes
  blsPublicKey : Bytes
  weight : UInt64
deriving DecidableEq

/-- The validator set with which a subnet is converted. -/
structure ConversionData where
  subnetId : SubnetId
  validatorManagerBlockchainId : BlockchainId
  validatorManagerAddress : Address
  initialValidators : List InitialValidator
deriving DecidableEq

namespace InitialValidator

/-- The packed form of a validator whose key has the right length. -/
def pack (validator : InitialValidator) : Except MessageError Bytes := do
  checkBlsPublicKey validator.blsPublicKey
  return Packed.counted validator.nodeId ++ validator.blsPublicKey ++ Packed.u64 validator.weight

/-- Reads a packed validator. -/
def unpack : Packed.Reading InitialValidator := do
  let nodeId ← Packed.takeCounted
  let blsPublicKey ← Packed.take blsPublicKeyLength
  let weight ← Packed.takeU64
  return { nodeId, blsPublicKey, weight }

end InitialValidator

namespace ConversionData

/-- The packed form of conversion data, in which every key must have the right length. -/
def pack (data : ConversionData) : Except MessageError Bytes := do
  let validators ← data.initialValidators.mapM InitialValidator.pack
  return Packed.u16 codecId ++ data.subnetId.hash.bytes ++
    data.validatorManagerBlockchainId.hash.bytes ++ Packed.u32 addressLength ++
    data.validatorManagerAddress.bytes ++ Packed.count data.initialValidators ++
    validators.flatten

/-- Reads the fields of packed conversion data. -/
def fields : Packed.Reading ConversionData := do
  takeCodecId
  let subnet ← Packed.takeFixed 32
  let blockchain ← Packed.takeFixed 32
  let size ← Packed.takeU32
  if size ≠ addressLength then
    throw (.invalidMessageLength size addressLength)
  let manager ← Packed.takeFixed 20
  let validators ← Packed.takeList InitialValidator.unpack
  Packed.finish
  return {
    subnetId := ⟨subnet⟩
    validatorManagerBlockchainId := ⟨blockchain⟩
    validatorManagerAddress := manager
    initialValidators := validators
  }

/-- Conversion data from its packed form. -/
def unpack (input : Bytes) : Except MessageError ConversionData :=
  Packed.read fields input

/-- The hash of the packed form. -/
def conversionId (data : ConversionData) : Except MessageError ConversionId := do
  let packed ← data.pack
  return ⟨Sha256.hash packed⟩

end ConversionData

/-- The validation id of the validator at an index of the conversion data of a subnet. -/
def initialValidationId (subnet : SubnetId) (index : UInt32) : ValidationId :=
  ⟨Sha256.hash (subnet.hash.bytes ++ Packed.u32 index)⟩

end Valset
