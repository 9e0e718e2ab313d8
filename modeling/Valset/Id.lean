import Valset.Id.Cb58
import Valset.Text.Blank

/-!
# Identifiers

The 32-byte identifiers of validations, delegations, subnets, blockchains and conversions, the
20-byte node ids, and the addresses of owners on the P-Chain. Each is written one way and read in
two: as hexadecimal text behind `0x`, or in the notation of the network.
-/

namespace Valset

/-- What a 32-byte identifier stands for. -/
inductive IdKind
  | validation
  | delegation
  | subnet
  | blockchain
  | conversion
deriving DecidableEq, Repr

/-- The name under which an identifier of a kind is shown together with its value. -/
def IdKind.label : IdKind → String
  | .validation => "ValidationId"
  | .delegation => "DelegationId"
  | .subnet => "SubnetId"
  | .blockchain => "BlockchainId"
  | .conversion => "ConversionId"

/-- Reads an identifier of a given length: hexadecimal text behind `0x`, else cb58 text. -/
def readIdBytes (width : Nat) (text : String) : Except IdError (FixedBytes width) := do
  let text := Text.trim text
  let bytes ←
    if Text.startsWith ['0', 'x'] text.toList then (Hex.decodeMarked text).mapError .hex
    else Cb58.decode text
  match FixedBytes.ofBytes? bytes with
  | some fixed => return fixed
  | none => throw (.length width bytes.length)

/-- A 32-byte identifier of a kind. -/
structure Id (kind : IdKind) where
  hash : Hash32
deriving DecidableEq

/-- Identifies one validation period. -/
abbrev ValidationId := Id .validation

/-- Identifies one delegation to a validator. -/
abbrev DelegationId := Id .delegation

/-- Identifies a subnet. -/
abbrev SubnetId := Id .subnet

/-- Identifies a blockchain. -/
abbrev BlockchainId := Id .blockchain

/-- The hash of packed conversion data. -/
abbrev ConversionId := Id .conversion

namespace Id

variable {kind : IdKind}

/-- The identifier with all bytes zero. -/
def zero : Id kind :=
  ⟨FixedBytes.zero⟩

/-- Whether all bytes are zero. -/
def isZero (id : Id kind) : Bool :=
  id.hash.isZero

/-- The text `0x…` of an identifier. -/
def display (id : Id kind) : String :=
  id.hash.toHex

/-- The cb58 text of an identifier. -/
def toCb58 (id : Id kind) : String :=
  Cb58.encode id.hash.bytes

/-- An identifier with its kind. -/
def labelled (id : Id kind) : String :=
  s!"{kind.label}({id.display})"

/-- Reads an identifier. -/
def parse (text : String) : Except IdError (Id kind) :=
  Id.mk <$> readIdBytes 32 text

/-- The identifiers of a list in ascending order, equal ones once. -/
def sortDistinct (ids : List (Id kind)) : List (Id kind) :=
  (FixedBytes.sortDistinct (ids.map (·.hash))).map Id.mk

end Id

/-- The 20-byte hash of the certificate of a node. -/
structure NodeId where
  hash : FixedBytes 20
deriving DecidableEq

namespace NodeId

/-- What stands in front of the text of a node id. -/
def marker : String := "NodeID-"

/-- The node id with given bytes, when there are twenty. -/
def ofBytes (bytes : Bytes) : Except IdError NodeId :=
  match FixedBytes.ofBytes? bytes with
  | some fixed => .ok ⟨fixed⟩
  | none => .error (.length 20 bytes.length)

/-- The bytes of a node id. -/
def bytes (node : NodeId) : Bytes :=
  node.hash.bytes

/-- The text `NodeID-…` of a node id. -/
def display (node : NodeId) : String :=
  marker ++ Cb58.encode node.bytes

/-- A node id with its kind. -/
def labelled (node : NodeId) : String :=
  s!"NodeId({node.display})"

/-- Reads a node id, with or without the marker. -/
def parse (text : String) : Except IdError NodeId :=
  let chars := Text.trimChars text.toList
  let rest := (Text.dropStart? marker.toList chars).getD chars
  NodeId.mk <$> readIdBytes 20 (String.ofList rest)

/-- The node ids of a list in ascending order, equal ones once. -/
def sortDistinct (nodes : List NodeId) : List NodeId :=
  (FixedBytes.sortDistinct (nodes.map (·.hash))).map NodeId.mk

end NodeId

namespace OwnerAddress

/-- What stands in front of the text of an address on the P-Chain. -/
def marker : String := "P-"

/-- Reads the address of an owner: hexadecimal text behind `0x`, else bech32 text with or without
the marker and with any readable part. -/
def parse (text : String) : Except IdError Address := do
  let chars := Text.trimChars text.toList
  let bytes ←
    if Text.startsWith ['0', 'x'] chars then
      (Hex.decodeMarked (String.ofList chars)).mapError .hex
    else
      let rest := (Text.dropStart? marker.toList chars).getD chars
      let (_, groups) ← (Bech32.decode rest).mapError .bech32
      (Bech32.ofGroups groups).mapError .bech32
  match FixedBytes.ofBytes? bytes with
  | some fixed => return fixed
  | none => throw (.length 20 bytes.length)

/-- The text of the address of an owner with a readable part. -/
def format (address : Address) (readable : String) : Except IdError String := do
  let chars ← (Bech32.encode readable.toList (Bech32.toGroups address.bytes)).mapError .bech32
  return marker ++ String.ofList chars

end OwnerAddress
end Valset
