import Valset.Id.Json
import Valset.Message

/-!
# Messages in JSON

Owners, conversion data, validation periods and messages as JSON. A message is an object whose field
`type` names its kind, or an array that starts with that name.
-/

namespace Valset

namespace Owner

/-- An owner as JSON. -/
def toJson (owner : Owner) : Json :=
  .object [
    ("threshold", .ofNat owner.threshold.toNat),
    ("addresses", .array (owner.addresses.map Json.ofFixed))]

/-- Reads an owner. -/
def ofJson? : Json.Reader Owner := fun json => do
  let source ← Json.source? ["threshold", "addresses"] json
  return {
    threshold := ← source.required "threshold" Json.readUInt32
    addresses := ← source.required "addresses" (Json.readList Json.readAddress)
  }

end Owner

namespace InitialValidator

/-- A validator of the first set as JSON. -/
def toJson (validator : InitialValidator) : Json :=
  .object [
    ("nodeId", .ofBytes validator.nodeId),
    ("blsPublicKey", .ofBytes validator.blsPublicKey),
    ("weight", .ofUInt64 validator.weight)]

/-- Reads a validator of the first set. -/
def ofJson? : Json.Reader InitialValidator := fun json => do
  let source ← Json.source? ["nodeId", "blsPublicKey", "weight"] json
  return {
    nodeId := ← source.required "nodeId" Json.readBytes
    blsPublicKey := ← source.required "blsPublicKey" Json.readBytes
    weight := ← source.required "weight" Json.readUInt64
  }

end InitialValidator

namespace ConversionData

/-- The names of the fields in JSON. -/
def fieldNames : List String :=
  ["subnetId", "validatorManagerBlockchainId", "validatorManagerAddress", "initialValidators"]

/-- Conversion data as JSON. -/
def toJson (data : ConversionData) : Json :=
  .object [
    ("subnetId", data.subnetId.toJson),
    ("validatorManagerBlockchainId", data.validatorManagerBlockchainId.toJson),
    ("validatorManagerAddress", .ofFixed data.validatorManagerAddress),
    ("initialValidators", .array (data.initialValidators.map InitialValidator.toJson))]

/-- Reads conversion data. -/
def ofJson? : Json.Reader ConversionData := fun json => do
  let source ← Json.source? fieldNames json
  return {
    subnetId := ← source.required "subnetId" Id.ofJson?
    validatorManagerBlockchainId := ← source.required "validatorManagerBlockchainId" Id.ofJson?
    validatorManagerAddress := ← source.required "validatorManagerAddress" Json.readAddress
    initialValidators :=
      ← source.required "initialValidators" (Json.readList InitialValidator.ofJson?)
  }

end ConversionData

namespace ValidationPeriod

/-- The names of the fields in JSON. -/
def fieldNames : List String :=
  ["subnetId", "nodeId", "blsPublicKey", "registrationExpiry", "remainingBalanceOwner",
    "disableOwner", "weight"]

/-- A validation period as JSON. -/
def toJson (period : ValidationPeriod) : Json :=
  .object [
    ("subnetId", period.subnetId.toJson),
    ("nodeId", .ofBytes period.nodeId),
    ("blsPublicKey", .ofBytes period.blsPublicKey),
    ("registrationExpiry", .ofUInt64 period.registrationExpiry),
    ("remainingBalanceOwner", period.remainingBalanceOwner.toJson),
    ("disableOwner", period.disableOwner.toJson),
    ("weight", .ofUInt64 period.weight)]

/-- Reads a validation period. -/
def ofJson? : Json.Reader ValidationPeriod := fun json => do
  let source ← Json.source? fieldNames json
  return {
    subnetId := ← source.required "subnetId" Id.ofJson?
    nodeId := ← source.required "nodeId" Json.readBytes
    blsPublicKey := ← source.required "blsPublicKey" Json.readBytes
    registrationExpiry := ← source.required "registrationExpiry" Json.readUInt64
    remainingBalanceOwner := ← source.required "remainingBalanceOwner" Owner.ofJson?
    disableOwner := ← source.required "disableOwner" Owner.ofJson?
    weight := ← source.required "weight" Json.readUInt64
  }

end ValidationPeriod

namespace Message

/-- The fields of a message as JSON. -/
def jsonFields : Message → List (String × Json)
  | .subnetToL1Conversion conversion => [("conversion_id", conversion.toJson)]
  | .registerL1Validator validation period =>
    [("validation_id", validation.toJson), ("validation_period", period.toJson)]
  | .l1ValidatorRegistration validation registered =>
    [("validation_id", validation.toJson), ("registered", .bool registered)]
  | .l1ValidatorWeight validation nonce weight =>
    [("validation_id", validation.toJson), ("nonce", .ofUInt64 nonce),
      ("weight", .ofUInt64 weight)]
  | .validationUptime validation uptime =>
    [("validation_id", validation.toJson), ("uptime_seconds", .ofUInt64 uptime)]

/-- The name of the kind of a message. -/
def kindName : Message → String
  | .subnetToL1Conversion .. => "subnetToL1Conversion"
  | .registerL1Validator .. => "registerL1Validator"
  | .l1ValidatorRegistration .. => "l1ValidatorRegistration"
  | .l1ValidatorWeight .. => "l1ValidatorWeight"
  | .validationUptime .. => "validationUptime"

/-- A message as JSON. -/
def toJson (message : Message) : Json :=
  .object (("type", .string message.kindName) :: message.jsonFields)

/-- Reads the fields of a message of the named kind. -/
def ofFields? (kind : String) (fields : Json) : Option Message := do
  match kind with
  | "subnetToL1Conversion" =>
    let source ← Json.source? ["conversion_id"] fields
    return .subnetToL1Conversion (← source.required "conversion_id" Id.ofJson?)
  | "registerL1Validator" =>
    let source ← Json.source? ["validation_id", "validation_period"] fields
    return .registerL1Validator (← source.required "validation_id" Id.ofJson?)
      (← source.required "validation_period" ValidationPeriod.ofJson?)
  | "l1ValidatorRegistration" =>
    let source ← Json.source? ["validation_id", "registered"] fields
    return .l1ValidatorRegistration (← source.required "validation_id" Id.ofJson?)
      (← source.required "registered" Json.readBool)
  | "l1ValidatorWeight" =>
    let source ← Json.source? ["validation_id", "nonce", "weight"] fields
    return .l1ValidatorWeight (← source.required "validation_id" Id.ofJson?)
      (← source.required "nonce" Json.readUInt64) (← source.required "weight" Json.readUInt64)
  | "validationUptime" =>
    let source ← Json.source? ["validation_id", "uptime_seconds"] fields
    return .validationUptime (← source.required "validation_id" Id.ofJson?)
      (← source.required "uptime_seconds" Json.readUInt64)
  | _ => none

/-- Reads a message. -/
def ofJson? : Json.Reader Message
  | .object fields =>
    if 1 < Json.countKey "type" fields then none
    else do
      let kind ← Json.readString (← fields.lookup "type")
      ofFields? kind (.object (fields.filter (·.1 != "type")))
  | .array (kind :: rest) => do ofFields? (← Json.readString kind) (.array rest)
  | _ => none

end Message
end Valset
