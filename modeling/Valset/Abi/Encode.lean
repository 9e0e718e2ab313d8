import Valset.Abi

/-!
# Encoding of values

A sequence of values is encoded as heads followed by tails. The head of a value of fixed size is its
encoding; the head of any other is the offset of its encoding among the tails.
-/

namespace Valset
namespace Abi

/-- A number as a word of 32 bytes. -/
def word (value : Nat) : Bytes :=
  Bytes.ofNat 32 value

/-- A byte string filled up with zeros to whole words. -/
def padRight (bytes : Bytes) : Bytes :=
  bytes ++ Bytes.zeros ((32 - bytes.length % 32) % 32)

/-- An encoded value, and whether its size depends on the value. -/
structure Part where
  dynamic : Bool
  encoded : Bytes

namespace Part

/-- The size of the head of a part. -/
def headSize (part : Part) : Nat :=
  if part.dynamic then 32 else part.encoded.length

/-- The heads of parts whose tails start at an offset. -/
def heads : (offset : Nat) → List Part → Bytes
  | _, [] => []
  | offset, part :: rest =>
    if part.dynamic then word offset ++ heads (offset + part.encoded.length) rest
    else part.encoded ++ heads offset rest

/-- The tails of parts. -/
def tails : List Part → Bytes
  | [] => []
  | part :: rest => if part.dynamic then part.encoded ++ tails rest else tails rest

/-- The size of all heads. -/
def headsSize : List Part → Nat
  | [] => 0
  | part :: rest => part.headSize + headsSize rest

/-- Heads and tails of a sequence. -/
def layout (parts : List Part) : Bytes :=
  heads (headsSize parts) parts ++ tails parts

end Part

mutual

/-- The encoding of a value. -/
def encodeValue : AbiValue → Part
  | .address value => ⟨false, Bytes.zeros 12 ++ value.bytes⟩
  | .bool value => ⟨false, word value.toNat⟩
  | .uint value => ⟨false, word value.toNat⟩
  | .fixedBytes value => ⟨false, padRight value⟩
  | .bytes value => ⟨true, word value.length ++ padRight value⟩
  | .string value =>
    let bytes := Bytes.ofText value
    ⟨true, word bytes.length ++ padRight bytes⟩
  | .array items => ⟨true, word items.length ++ Part.layout (encodeParts items)⟩
  | .tuple items =>
    let parts := encodeParts items
    ⟨parts.any Part.dynamic, Part.layout parts⟩

/-- The encodings of a list of values. -/
def encodeParts : List AbiValue → List Part
  | [] => []
  | item :: rest => encodeValue item :: encodeParts rest

end

/-- The encoding of a sequence of values. -/
def encode (values : List AbiValue) : Bytes :=
  Part.layout (encodeParts values)

/-- The encoding of a structure by its fields. -/
def encodeStruct : AbiValue → Bytes
  | .tuple fields => encode fields
  | value => encode [value]

end Abi
end Valset
