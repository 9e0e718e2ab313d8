import Valset.Abi.Decode
import Valset.Abi.Encode
import Valset.Bytes.Hex
import Valset.Text.Quoted

/-!
# Reverts

The errors with which the contracts refuse a call, and their recognition in the data of a revert.
The errors of the staking managers are tried first, then those of the message library. Each set also
knows the plain reason text.
-/

namespace Valset

/-- An error that a contract declares. -/
structure ContractErrorKind where
  name : String
  fields : List (String × AbiType)

namespace ContractErrorKind

/-- The types of the fields. -/
def types (kind : ContractErrorKind) : List AbiType :=
  kind.fields.map (·.2)

/-- The four bytes that name an error in the data of a revert. -/
def selector (kind : ContractErrorKind) : Bytes :=
  selectorOf (AbiType.signature kind.name kind.types)

/-- The errors of the native staking manager. -/
def native : List ContractErrorKind := [
  ⟨"DelegatorIneligibleForRewards", [("delegation_id", .fixedBytes 32)]⟩,
  ⟨"InvalidDelegationFee", [("delegation_fee_bips", .uint 16)]⟩,
  ⟨"InvalidDelegationID", [("delegation_id", .fixedBytes 32)]⟩,
  ⟨"InvalidDelegatorStatus", [("status", .uint 8)]⟩,
  ⟨"InvalidInitialization", []⟩,
  ⟨"InvalidMinStakeDuration", [("min_stake_duration", .uint 64)]⟩,
  ⟨"InvalidNonce", [("nonce", .uint 64)]⟩,
  ⟨"InvalidRewardRecipient", [("reward_recipient", .address)]⟩,
  ⟨"InvalidStakeAmount", [("stake_amount", .uint 256)]⟩,
  ⟨"InvalidStakeMultiplier", [("maximum_stake_multiplier", .uint 8)]⟩,
  ⟨"InvalidUptimeBlockchainID", [("uptime_blockchain_id", .fixedBytes 32)]⟩,
  ⟨"InvalidValidatorStatus", [("status", .uint 8)]⟩,
  ⟨"InvalidWarpMessage", []⟩,
  ⟨"InvalidWarpOriginSenderAddress", [("sender_address", .address)]⟩,
  ⟨"InvalidWarpSourceChainID", [("source_chain_id", .fixedBytes 32)]⟩,
  ⟨"MaxWeightExceeded", [("new_validator_weight", .uint 64)]⟩,
  ⟨"MinStakeDurationNotPassed", [("end_time", .uint 64)]⟩,
  ⟨"NotInitializing", []⟩,
  ⟨"ReentrancyGuardReentrantCall", []⟩,
  ⟨"UnauthorizedOwner", [("sender", .address)]⟩,
  ⟨"UnexpectedValidationID",
    [("validation_id", .fixedBytes 32), ("expected_validation_id", .fixedBytes 32)]⟩,
  ⟨"ValidatorIneligibleForRewards", [("validation_id", .fixedBytes 32)]⟩,
  ⟨"ValidatorNotPoS", [("validation_id", .fixedBytes 32)]⟩,
  ⟨"ZeroWeightToValueFactor", []⟩]

/-- The errors of the staking manager that takes an allowance: those of the native one and two
about the token. -/
def erc20 : List ContractErrorKind :=
  native ++ [
    ⟨"InvalidTokenAddress", [("token_address", .address)]⟩,
    ⟨"SafeERC20FailedOperation", [("token", .address)]⟩]

/-- The errors of the message library. -/
def messageLibrary : List ContractErrorKind := [
  ⟨"InvalidBLSPublicKey", []⟩,
  ⟨"InvalidCodecID", [("id", .uint 32)]⟩,
  ⟨"InvalidConversionID",
    [("encoded_conversion_id", .fixedBytes 32), ("expected_conversion_id", .fixedBytes 32)]⟩,
  ⟨"InvalidMessageLength", [("actual", .uint 32), ("expected", .uint 32)]⟩,
  ⟨"InvalidMessageType", []⟩]

end ContractErrorKind

/-- What the data of a revert says. -/
inductive Revert
  | reason (text : String)
  | error (kind : ContractErrorKind) (values : List AbiValue)

namespace Revert

/-- The four bytes in front of a plain reason text. -/
def reasonSelector : Bytes :=
  [0x08, 0xc3, 0x79, 0xa0]

/-- The reason text in encoded data. -/
def reason? (data : Bytes) : Option Revert :=
  match Abi.decode [.string] data with
  | .ok [.string text] => some (.reason text)
  | _ => none

/-- An error of a given kind behind its selector. -/
def ofKind? (kind : ContractErrorKind) (data : Bytes) : Option Revert :=
  if data.take 4 = kind.selector then
    match Abi.decode kind.types (data.drop 4) with
    | .ok values => some (.error kind values)
    | .error _ => none
  else none

/-- A reason text, or the first error that fits. -/
def ofData? (kinds : List ContractErrorKind) (data : Bytes) : Option Revert :=
  reason? data <|> kinds.findSome? (ofKind? · data)

/-- What data says to a set of errors. Its selector must be known to the set; where the data as a
whole says nothing, what stands behind the selector is tried. -/
def decodeIn? (kinds : List ContractErrorKind) (data : Bytes) : Option Revert :=
  let selector := data.take 4
  if data.length < 4 then none
  else if selector = reasonSelector ∨ kinds.any (·.selector == selector) then
    ofData? kinds data <|> ofData? kinds (data.drop 4)
  else none

/-- What the data of a revert says. -/
def decode? (data : Bytes) : Option Revert :=
  decodeIn? ContractErrorKind.erc20 data <|> decodeIn? ContractErrorKind.messageLibrary data

/-- The text of the value of a field. -/
def showValue : AbiValue → String
  | .address value => value.toHex
  | .bool value => if value then "true" else "false"
  | .uint value => toString value.toNat
  | .fixedBytes value => "[" ++ ", ".intercalate (value.map fun byte => toString byte.toNat) ++ "]"
  | .bytes value => Hex.encode0x value
  | .string value => Text.quoted value
  | .array _ => "[]"
  | .tuple _ => "()"

/-- An error with the names and values of its fields. -/
def showError (kind : ContractErrorKind) (values : List AbiValue) : String :=
  if kind.fields.isEmpty then kind.name
  else
    let fields := kind.fields.zipWith (fun field value => s!"{field.1}: {showValue value}") values
    kind.name ++ " \x7b " ++ ", ".intercalate fields ++ " \x7d"

/-- The text of what a revert says. -/
def text : Revert → String
  | .reason text => s!"RevertString({Text.quoted text})"
  | .error kind values => s!"{kind.name}({showError kind values})"

/-- The text of the data of a revert: what it says, else its bytes. -/
def describe (data : Bytes) : String :=
  match decode? data with
  | some revert => revert.text
  | none => Hex.encode0x data

end Revert
end Valset
