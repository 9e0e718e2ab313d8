import Valset.Message.Json
import Valset.Proofs.Id
import Valset.Proofs.Json.Reader
import Valset.Proofs.Json.RoundTrip

/-!
# Parts of messages read back from JSON

Conversion data and validation periods are read back from their values in JSON, and those values
from their texts: they are nested a few levels deep and hold no numbers beyond 64 bits.
-/

namespace Valset

namespace Owner

theorem ofJson?_toJson (owner : Owner) : ofJson? owner.toJson = some owner := by
  have source : Json.source? ["threshold", "addresses"] owner.toJson =
      some ⟨[("threshold", .ofNat owner.threshold.toNat),
        ("addresses", .array (owner.addresses.map Json.ofFixed))], false⟩ := rfl
  simp [ofJson?, source, Json.Source.required, Json.Source.value?, List.lookup_cons,
    Json.readUInt32_ofNat, Json.readList_map Json.readAddress_ofFixed]

theorem readable_toJson
    (owner : Owner)
    (depth : Nat) :
    owner.toJson.Readable (depth + 2) := by
  have threshold : (Json.ofNat owner.threshold.toNat).Readable (depth + 1) :=
    Json.readable_ofNat (owner.threshold.toNat_lt.trans (by decide)) _
  have addresses : (Json.array (owner.addresses.map Json.ofFixed)).Readable (depth + 1) :=
    Json.readable_map (fun address => show (Json.ofFixed address).Readable depth from trivial) _
  exact ⟨threshold, addresses, trivial⟩

end Owner

namespace InitialValidator

theorem ofJson?_toJson (validator : InitialValidator) :
    ofJson? validator.toJson = some validator := by
  have source : Json.source? ["nodeId", "blsPublicKey", "weight"] validator.toJson =
      some ⟨[("nodeId", .ofBytes validator.nodeId),
        ("blsPublicKey", .ofBytes validator.blsPublicKey),
        ("weight", .ofUInt64 validator.weight)], false⟩ := rfl
  simp [ofJson?, source, Json.Source.required, Json.Source.value?, List.lookup_cons,
    Json.readBytes_ofBytes, Json.readUInt64_ofUInt64]

theorem readable_toJson
    (validator : InitialValidator)
    (depth : Nat) :
    validator.toJson.Readable (depth + 1) :=
  ⟨trivial, trivial, Json.readable_ofUInt64 _ _, trivial⟩

end InitialValidator

namespace ConversionData

/-- Conversion data are read back from their value in JSON. -/
theorem ofJson?_toJson (data : ConversionData) : ofJson? data.toJson = some data := by
  have source : Json.source? fieldNames data.toJson =
      some ⟨[("subnetId", data.subnetId.toJson),
        ("validatorManagerBlockchainId", data.validatorManagerBlockchainId.toJson),
        ("validatorManagerAddress", .ofFixed data.validatorManagerAddress),
        ("initialValidators", .array (data.initialValidators.map InitialValidator.toJson))],
        false⟩ := rfl
  simp [ofJson?, source, Json.Source.required, Json.Source.value?, List.lookup_cons,
    Id.ofJson?_toJson, Json.readAddress_ofFixed, Json.readList_map InitialValidator.ofJson?_toJson]

theorem readable_toJson
    (data : ConversionData)
    (depth : Nat) :
    data.toJson.Readable (depth + 3) :=
  ⟨trivial, trivial, trivial,
    Json.readable_map (fun validator => validator.readable_toJson depth) _, trivial⟩

end ConversionData

namespace ValidationPeriod

/-- A validation period is read back from its value in JSON. -/
theorem ofJson?_toJson (period : ValidationPeriod) : ofJson? period.toJson = some period := by
  have source : Json.source? fieldNames period.toJson =
      some ⟨[("subnetId", period.subnetId.toJson),
        ("nodeId", .ofBytes period.nodeId),
        ("blsPublicKey", .ofBytes period.blsPublicKey),
        ("registrationExpiry", .ofUInt64 period.registrationExpiry),
        ("remainingBalanceOwner", period.remainingBalanceOwner.toJson),
        ("disableOwner", period.disableOwner.toJson),
        ("weight", .ofUInt64 period.weight)], false⟩ := rfl
  simp [ofJson?, source, Json.Source.required, Json.Source.value?, List.lookup_cons,
    Id.ofJson?_toJson, Json.readBytes_ofBytes, Json.readUInt64_ofUInt64, Owner.ofJson?_toJson]

theorem readable_toJson
    (period : ValidationPeriod)
    (depth : Nat) :
    period.toJson.Readable (depth + 3) :=
  ⟨trivial, trivial, trivial, Json.readable_ofUInt64 _ _,
    period.remainingBalanceOwner.readable_toJson depth, period.disableOwner.readable_toJson depth,
    Json.readable_ofUInt64 _ _, trivial⟩

end ValidationPeriod

namespace Message

/-- A message in JSON names its kind. -/
theorem get?_toJson_type (message : Message) :
    message.toJson.get? "type" = some (.string message.kindName) := by
  cases message <;> rfl

theorem readable_toJson
    (message : Message)
    (depth : Nat) :
    message.toJson.Readable (depth + 4) := by
  cases message with
  | subnetToL1Conversion conversion => exact ⟨trivial, trivial, trivial⟩
  | registerL1Validator validation period =>
      exact ⟨trivial, trivial, period.readable_toJson depth, trivial⟩
  | l1ValidatorRegistration validation registered => exact ⟨trivial, trivial, trivial, trivial⟩
  | l1ValidatorWeight validation nonce weight =>
      exact ⟨trivial, trivial, Json.readable_ofUInt64 _ _, Json.readable_ofUInt64 _ _, trivial⟩
  | validationUptime validation uptime =>
      exact ⟨trivial, trivial, Json.readable_ofUInt64 _ _, trivial⟩

end Message
end Valset
