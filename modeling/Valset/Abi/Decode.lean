import Valset.Abi
import Valset.Text.Utf8

/-!
# Decoding of values

Reads the values of given types from encoded data. Numbers keep the bits of their type, the first
twelve bytes of an address are ignored, and bytes that no value refers to are allowed.
-/

namespace Valset

/-- Why data cannot be decoded. -/
inductive AbiError
  | invalidData
  | emptyData
deriving DecidableEq, Repr

/-- The wording of an error. -/
def AbiError.message : AbiError → String
  | .invalidData => "Invalid data"
  | .emptyData =>
    "Invalid name: please ensure the contract and method you're calling exist! failed to decode " ++
      "empty bytes. if you're using jsonrpc this is likely due to jsonrpc returning `0x` " ++
      "in case " ++
      "contract or method don't exist"

namespace Abi

/-- A number of bytes at an offset. -/
def slice (data : Bytes) (offset size : Nat) : Except AbiError Bytes :=
  if data.length < offset + size then .error .invalidData
  else .ok ((data.drop offset).take size)

/-- The word at an offset. -/
def wordAt (data : Bytes) (offset : Nat) : Except AbiError Bytes :=
  slice data offset 32

/-- The offset or length at an offset, which must be below `2 ^ 32`. -/
def sizeAt (data : Bytes) (offset : Nat) : Except AbiError Nat := do
  let value := Bytes.toNat (← wordAt data offset)
  if value < UInt32.size then return value else throw .invalidData

/-- The truth value at an offset: all bytes but the last must be zero, and only a last byte of 1 is
true. -/
def boolAt (data : Bytes) (offset : Nat) : Except AbiError Bool := do
  let value := Bytes.toNat (← wordAt data offset)
  if value < 256 then return value == 1 else throw .invalidData

/-- The byte string behind its length. -/
def bytesAt (data : Bytes) (offset : Nat) : Except AbiError Bytes := do
  let start ← sizeAt data offset
  let size ← sizeAt data start
  slice data (start + 32) size

/-- Decodes a number of values that stand one behind the other. -/
def decodeMany (item : (offset : Nat) → Except AbiError (AbiValue × Nat)) :
    (count offset : Nat) → Except AbiError (List AbiValue)
  | 0, _ => .ok []
  | count + 1, offset => do
    let (value, next) ← item offset
    let rest ← decodeMany item count next
    return value :: rest

mutual

/-- The value at an offset, and the offset of the next head. -/
def decodeValue : AbiType → (data : Bytes) → (offset : Nat) → Except AbiError (AbiValue × Nat)
  | .address, data, offset => do
    return (.address (FixedBytes.fit ((← wordAt data offset).drop 12)), offset + 32)
  | .bool, data, offset => do
    return (.bool (← boolAt data offset), offset + 32)
  | .uint bits, data, offset => do
    let value := Bytes.toNat (← wordAt data offset)
    return (.uint (BitVec.ofNat 256 (value % Nat.pow 2 bits)), offset + 32)
  | .fixedBytes size, data, offset => do
    return (.fixedBytes (← slice data offset size), offset + 32)
  | .bytes, data, offset => do
    return (.bytes (← bytesAt data offset), offset + 32)
  | .string, data, offset => do
    return (.string (Text.decodeLossy (← bytesAt data offset)), offset + 32)
  | .array item, data, offset => do
    let start ← sizeAt data offset
    let count ← sizeAt data start
    let items ← decodeMany (decodeValue item (data.drop (start + 32))) count 0
    return (.array items, offset + 32)
  | .tuple items, data, offset => do
    if AbiType.anyDynamic items then
      let start ← sizeAt data offset
      if data.length < start then
        throw .invalidData
      let (values, _) ← decodeValues items (data.drop start) 0
      return (.tuple values, offset + 32)
    else
      let (values, next) ← decodeValues items data offset
      return (.tuple values, next)

/-- The values of a list of types whose heads start at an offset. -/
def decodeValues : List AbiType → (data : Bytes) → (offset : Nat) →
    Except AbiError (List AbiValue × Nat)
  | [], _, offset => .ok ([], offset)
  | type :: rest, data, offset => do
    let (value, next) ← decodeValue type data offset
    let (values, last) ← decodeValues rest data next
    return (value :: values, last)

end

/-- The values of a list of types; no data at all is a fault of its own unless no value is
wanted. -/
def decode (types : List AbiType) (data : Bytes) : Except AbiError (List AbiValue) :=
  if ¬ types.isEmpty ∧ data.isEmpty then .error .emptyData
  else (·.1) <$> decodeValues types data 0

/-- A structure from the encoding of its fields. -/
def decodeStruct : AbiType → (data : Bytes) → Except AbiError AbiValue
  | .tuple fields, data => .tuple <$> decode fields data
  | type, data => do
    let values ← decode [type] data
    return values.headD (.tuple [])

end Abi
end Valset
