import Valset.Id

/-!
# Errors in P-Chain messages
-/

namespace Valset

/-- Why a message cannot be written or read, or an owner is refused. -/
inductive MessageError
  | invalidBlsPublicKey
  | invalidCodecId (codec : UInt32)
  | invalidConversionId (encoded expected : ConversionId)
  | invalidMessageLength (actual expected : UInt32)
  | invalidMessageType
  | invalidOwnerThreshold (threshold : UInt32) (addresses : Nat)
  | ownerAddressesNotSorted
deriving DecidableEq

/-- The wording of an error. -/
def MessageError.message : MessageError → String
  | .invalidBlsPublicKey => "Invalid BLS public key: expected 48 bytes"
  | .invalidCodecId codec => s!"Invalid codec id {codec}"
  | .invalidConversionId encoded expected =>
    s!"Conversion id mismatch: message carries {encoded.display}, conversion data hashes to " ++
      expected.display
  | .invalidMessageLength actual expected =>
    s!"Invalid message length {actual}, expected {expected}"
  | .invalidMessageType => "Invalid message type"
  | .invalidOwnerThreshold threshold addresses =>
    s!"Invalid P-Chain owner: threshold {threshold} with {addresses} addresses"
  | .ownerAddressesNotSorted => "P-Chain owner addresses must be sorted and unique"

/-- The error of a message of one length where another one is needed; lengths count modulo
`2 ^ 32`. -/
def MessageError.ofLengths (actual expected : Nat) : MessageError :=
  .invalidMessageLength (UInt32.ofNat actual) (UInt32.ofNat expected)

end Valset
