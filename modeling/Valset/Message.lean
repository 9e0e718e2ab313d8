import Valset.Message.Period

/-!
# Messages between a validator manager and the P-Chain

Five kinds of message behind a header of codec id and type id. Four of them have a fixed length,
which is checked before the header. Conversion and uptime messages share a type id and are told
apart by their length.
-/

namespace Valset

/-- A message that a validator manager sends to or receives from the P-Chain. -/
inductive Message
  | subnetToL1Conversion (conversion : ConversionId)
  | registerL1Validator (validation : ValidationId) (period : ValidationPeriod)
  | l1ValidatorRegistration (validation : ValidationId) (registered : Bool)
  | l1ValidatorWeight (validation : ValidationId) (nonce weight : UInt64)
  | validationUptime (validation : ValidationId) (uptimeSeconds : UInt64)
deriving DecidableEq

namespace Message

/-- The length of the header. -/
def headerLength : Nat := 6

/-- The type id of conversion messages. -/
def conversionType : UInt32 := 0

/-- The type id of register messages. -/
def registerType : UInt32 := 1

/-- The type id of registration messages. -/
def registrationType : UInt32 := 2

/-- The type id of weight messages. -/
def weightType : UInt32 := 3

/-- The type id of uptime messages. -/
def uptimeType : UInt32 := 0

/-- The length of a conversion message. -/
def conversionLength : Nat := 38

/-- The length of a registration message. -/
def registrationLength : Nat := 39

/-- The length of a weight message. -/
def weightLength : Nat := 54

/-- The length of an uptime message. -/
def uptimeLength : Nat := 46

/-- The header of a message with a type id. -/
def header (type : UInt32) : Bytes :=
  Packed.u16 codecId ++ Packed.u32 type

/-- Reads a header, which must name the codec and a type id. -/
def takeHeader (type : UInt32) : Packed.Reading Unit := do
  takeCodecId
  let found ← Packed.takeU32
  if found ≠ type then
    throw .invalidMessageType

/-- Reads a message of a fixed length. -/
def readFixed {α : Type} (length : Nat) (type : UInt32) (fields : Packed.Reading α)
    (input : Bytes) : Except MessageError α :=
  if input.length ≠ length then .error (.ofLengths input.length length)
  else
    Packed.read (do
      takeHeader type
      fields) input

/-- Reads a 32-byte identifier. -/
def takeId {kind : IdKind} : Packed.Reading (Id kind) :=
  Id.mk <$> Packed.takeFixed 32

/-! ## The five kinds -/

/-- The bytes of a conversion message. -/
def packConversion (conversion : ConversionId) : Bytes :=
  header conversionType ++ conversion.hash.bytes

/-- The conversion id in a conversion message. -/
def unpackConversion : Bytes → Except MessageError ConversionId :=
  readFixed conversionLength conversionType takeId

/-- The bytes of a register message and their hash, the validation id. -/
def packRegister (period : ValidationPeriod) : Except MessageError (ValidationId × Bytes) := do
  checkBlsPublicKey period.blsPublicKey
  let packed := header registerType ++ period.pack
  return (⟨Sha256.hash packed⟩, packed)

/-- The period in a register message. -/
def unpackRegister (input : Bytes) : Except MessageError ValidationPeriod :=
  Packed.read (do
    takeHeader registerType
    let period ← ValidationPeriod.unpack
    Packed.finish
    return period) input

/-- The bytes of a registration message. -/
def packRegistration (validation : ValidationId) (registered : Bool) : Bytes :=
  header registrationType ++ validation.hash.bytes ++ Packed.bool registered

/-- Validation id and outcome in a registration message. -/
def unpackRegistration : Bytes → Except MessageError (ValidationId × Bool) :=
  readFixed registrationLength registrationType do
    let validation ← takeId
    let registered ← Packed.takeBool
    return (validation, registered)

/-- The bytes of a weight message. -/
def packWeight (validation : ValidationId) (nonce weight : UInt64) : Bytes :=
  header weightType ++ validation.hash.bytes ++ Packed.u64 nonce ++ Packed.u64 weight

/-- Validation id, nonce and weight in a weight message. -/
def unpackWeight : Bytes → Except MessageError (ValidationId × UInt64 × UInt64) :=
  readFixed weightLength weightType do
    let validation ← takeId
    let nonce ← Packed.takeU64
    let weight ← Packed.takeU64
    return (validation, nonce, weight)

/-- The bytes of an uptime message. -/
def packUptime (validation : ValidationId) (uptime : UInt64) : Bytes :=
  header uptimeType ++ validation.hash.bytes ++ Packed.u64 uptime

/-- Validation id and seconds in an uptime message. -/
def unpackUptime : Bytes → Except MessageError (ValidationId × UInt64) :=
  readFixed uptimeLength uptimeType do
    let validation ← takeId
    let uptime ← Packed.takeU64
    return (validation, uptime)

/-! ## Any kind -/

/-- The bytes of a message. -/
def encode : Message → Except MessageError Bytes
  | .subnetToL1Conversion conversion => .ok (packConversion conversion)
  | .registerL1Validator _ period => (·.2) <$> packRegister period
  | .l1ValidatorRegistration validation registered => .ok (packRegistration validation registered)
  | .l1ValidatorWeight validation nonce weight => .ok (packWeight validation nonce weight)
  | .validationUptime validation uptime => .ok (packUptime validation uptime)

/-- The type id that the bytes of a message name. -/
def typeOf (input : Bytes) : UInt32 :=
  UInt32.ofNat (Bytes.toNat ((input.drop 2).take 4))

/-- The message with the given bytes. The kind is chosen by type id, and by length between
conversion and uptime messages. -/
def decode (input : Bytes) : Except MessageError Message :=
  if input.length < headerLength then .error (.ofLengths input.length headerLength)
  else
    let type := typeOf input
    if type = uptimeType ∧ input.length = uptimeLength then
      (fun (validation, uptime) => .validationUptime validation uptime) <$> unpackUptime input
    else if type = conversionType then .subnetToL1Conversion <$> unpackConversion input
    else if type = registerType then
      .registerL1Validator ⟨Sha256.hash input⟩ <$> unpackRegister input
    else if type = registrationType then
      (fun (validation, registered) => .l1ValidatorRegistration validation registered) <$>
        unpackRegistration input
    else if type = weightType then
      (fun (validation, nonce, weight) => .l1ValidatorWeight validation nonce weight) <$>
        unpackWeight input
    else .error .invalidMessageType

/-- The conversion id that a conversion message and conversion data agree on. -/
def verifyConversion (input : Bytes) (data : ConversionData) :
    Except MessageError ConversionId := do
  let encoded ← unpackConversion input
  let expected ← data.conversionId
  if encoded ≠ expected then
    throw (.invalidConversionId encoded expected)
  return expected

end Message
end Valset
