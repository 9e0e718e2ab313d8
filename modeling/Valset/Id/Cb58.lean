import Valset.Hash.Sha256
import Valset.Id.Error

/-!
# cb58 text

The text form of identifiers: the base58 form of the payload followed by the last four bytes of its
hash, so that a mistyped text is found out.
-/

namespace Valset
namespace Cb58

/-- The number of bytes behind the payload. -/
def checksumLength : Nat := 4

/-- The last four bytes of the hash of a payload. -/
def checksum (payload : Bytes) : Bytes :=
  (Sha256.hash payload).bytes.drop (32 - checksumLength)

/-- The text of a payload. -/
def encode (payload : Bytes) : String :=
  String.ofList (Base58.encodeChars (payload ++ checksum payload))

/-- The payload of a text whose checksum is right. -/
def decode (text : String) : Except IdError Bytes := do
  let data ← (Base58.decodeChars text.toList).mapError .base58
  if data.length < checksumLength then
    throw (.length checksumLength data.length)
  let payload := data.take (data.length - checksumLength)
  if checksum payload ≠ data.drop (data.length - checksumLength) then
    throw .checksum
  return payload

end Cb58
end Valset
