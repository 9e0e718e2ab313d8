import Valset.Bytes.Hex
import Valset.Id.Base58
import Valset.Id.Bech32
import Valset.Text.Quoted

/-!
# Errors in the text of an identifier

Each cause has its wording, which names the place of the fault where there is one.
-/

namespace Valset

/-- The wording of a fault in hexadecimal text; a byte outside ASCII shows as the character of the
same number. -/
def Hex.Error.message : Hex.Error → String
  | .oddLength => "odd number of digits"
  | .invalidCharacter byte position =>
    s!"invalid character {Text.quotedSingle (Char.ofNat byte.toNat)} at position {position}"

/-- The wording of a fault in base58 text. -/
def Base58.Error.message : Base58.Error → String
  | .nonAscii position =>
    s!"provided string contained non-ascii character starting at byte {position}"
  | .invalidCharacter c position =>
    s!"provided string contained invalid character {Text.quotedSingle c} at byte {position}"

/-- The wording of a fault in bech32 text. -/
def Bech32.Error.message : Bech32.Error → String
  | .missingSeparator => "missing human-readable separator, \"1\""
  | .invalidChecksum => "invalid checksum"
  | .invalidLength => "invalid length"
  | .invalidCharacter c => s!"invalid character (code={c})"
  | .mixedCase => "mixed-case strings not allowed"
  | .invalidPadding => "invalid padding"

/-- Why a text is not an identifier or an owner address. -/
inductive IdError
  | base58 (cause : Base58.Error)
  | checksum
  | hex (cause : Hex.Error)
  | length (expected actual : Nat)
  | bech32 (cause : Bech32.Error)
deriving DecidableEq, Repr

/-- The wording of an error. -/
def IdError.message : IdError → String
  | .base58 cause => "Invalid base58 encoding: " ++ cause.message
  | .checksum => "cb58 checksum mismatch"
  | .hex cause => "Invalid hex encoding: " ++ cause.message
  | .length expected actual => s!"Expected {expected} bytes, found {actual}"
  | .bech32 cause => "Invalid bech32 address: " ++ cause.message

end Valset
