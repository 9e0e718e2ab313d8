import Valset.Manager.Operation

/-!
# The message library

A contract that packs and unpacks the messages of the P-Chain.
-/

namespace Valset

/-- A message library, named by its address. -/
structure MessageLibrary where
  address : Address
deriving DecidableEq

namespace MessageLibrary

open Operation

/-- Calls a function of the library and takes its results apart. -/
def call {α : Type} (library : MessageLibrary) (function : ContractFunction)
    (arguments : List AbiValue) (extract : List AbiValue → Option α) : Operation α := do
  let results ← read library.address function arguments
  getOrThrow (extract results) (.undecodableResult .invalidData)

/-- The single byte string in results. -/
def oneBytes : List AbiValue → Option Bytes
  | [value] => value.bytes?
  | _ => none

/-- Packs conversion data. -/
def packConversionData (library : MessageLibrary) (data : ConversionData) : Operation Bytes :=
  library.call MessageLibraryContract.packConversionData [data.toAbi] oneBytes

/-- Packs a register message; gives the validation and the message. -/
def packRegister (library : MessageLibrary) (period : ValidationPeriod) :
    Operation (ValidationId × Bytes) :=
  library.call MessageLibraryContract.packRegisterL1ValidatorMessage [period.toAbi] fun
    | [id, packed] => do return (⟨← id.fixed? 32⟩, ← packed.bytes?)
    | _ => none

/-- Packs a registration message. -/
def packRegistration (library : MessageLibrary) (validation : ValidationId) (registered : Bool) :
    Operation Bytes :=
  library.call MessageLibraryContract.packL1ValidatorRegistrationMessage
    [.ofFixed validation.hash, .bool registered] oneBytes

/-- Packs a weight message. -/
def packWeight (library : MessageLibrary) (validation : ValidationId) (nonce weight : UInt64) :
    Operation Bytes :=
  library.call MessageLibraryContract.packL1ValidatorWeightMessage
    [.ofFixed validation.hash, .ofUInt64 nonce, .ofUInt64 weight] oneBytes

/-- Packs a conversion message. -/
def packConversion (library : MessageLibrary) (conversion : ConversionId) : Operation Bytes :=
  library.call MessageLibraryContract.packSubnetToL1ConversionMessage [.ofFixed conversion.hash]
    oneBytes

/-- Packs an uptime message. -/
def packUptime (library : MessageLibrary) (validation : ValidationId) (uptime : UInt64) :
    Operation Bytes :=
  library.call MessageLibraryContract.packValidationUptimeMessage
    [.ofFixed validation.hash, .ofUInt64 uptime] oneBytes

/-- Unpacks a registration message. -/
def unpackRegistration (library : MessageLibrary) (packed : Bytes) :
    Operation (ValidationId × Bool) :=
  library.call MessageLibraryContract.unpackL1ValidatorRegistrationMessage [.bytes packed] fun
    | [id, registered] => do return (⟨← id.fixed? 32⟩, ← registered.bool?)
    | _ => none

/-- Unpacks a weight message. -/
def unpackWeight (library : MessageLibrary) (packed : Bytes) :
    Operation (ValidationId × UInt64 × UInt64) :=
  library.call MessageLibraryContract.unpackL1ValidatorWeightMessage [.bytes packed] fun
    | [id, nonce, weight] => do return (⟨← id.fixed? 32⟩, ← nonce.uint64?, ← weight.uint64?)
    | _ => none

/-- Unpacks a register message. -/
def unpackRegister (library : MessageLibrary) (packed : Bytes) : Operation ValidationPeriod :=
  library.call MessageLibraryContract.unpackRegisterL1ValidatorMessage [.bytes packed] fun
    | [period] => ValidationPeriod.ofAbi? period
    | _ => none

/-- Unpacks a conversion message. -/
def unpackConversion (library : MessageLibrary) (packed : Bytes) : Operation ConversionId :=
  library.call MessageLibraryContract.unpackSubnetToL1ConversionMessage [.bytes packed] fun
    | [id] => do return ⟨← id.fixed? 32⟩
    | _ => none

/-- Unpacks an uptime message. -/
def unpackUptime (library : MessageLibrary) (packed : Bytes) : Operation (ValidationId × UInt64) :=
  library.call MessageLibraryContract.unpackValidationUptimeMessage [.bytes packed] fun
    | [id, uptime] => do return (⟨← id.fixed? 32⟩, ← uptime.uint64?)
    | _ => none

end MessageLibrary
end Valset
