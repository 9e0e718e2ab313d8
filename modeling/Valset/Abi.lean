import Valset.Bytes
import Valset.Hash.Keccak256

/-!
# Types and values of the contract interface

The types of arguments, results, events and errors of contracts, their values, and the selectors by
which functions and errors are told apart.
-/

namespace Valset

/-- The type of an argument, result or field. -/
inductive AbiType
  | address
  | bool
  | uint (bits : Nat)
  | fixedBytes (size : Nat)
  | bytes
  | string
  | array (item : AbiType)
  | tuple (items : List AbiType)
deriving Inhabited

/-- The value of an argument, result or field. -/
inductive AbiValue
  | address (value : Address)
  | bool (value : Bool)
  | uint (value : U256)
  | fixedBytes (value : Bytes)
  | bytes (value : Bytes)
  | string (value : String)
  | array (items : List AbiValue)
  | tuple (items : List AbiValue)
deriving Inhabited

namespace AbiType

mutual

/-- The name of a type in signatures. -/
def name : AbiType → String
  | .address => "address"
  | .bool => "bool"
  | .uint bits => s!"uint{bits}"
  | .fixedBytes size => s!"bytes{size}"
  | .bytes => "bytes"
  | .string => "string"
  | .array item => item.name ++ "[]"
  | .tuple items => "(" ++ ",".intercalate (names items) ++ ")"

/-- The names of a list of types. -/
def names : List AbiType → List String
  | [] => []
  | item :: rest => item.name :: names rest

end

mutual

/-- Whether the size of the encoding depends on the value. -/
def isDynamic : AbiType → Bool
  | .bytes => true
  | .string => true
  | .array _ => true
  | .tuple items => anyDynamic items
  | _ => false

/-- Whether any of a list of types is dynamic. -/
def anyDynamic : List AbiType → Bool
  | [] => false
  | item :: rest => item.isDynamic || anyDynamic rest

end

/-- The text by which a function, event or error is identified. -/
def signature (name : String) (inputs : List AbiType) : String :=
  name ++ "(" ++ ",".intercalate (names inputs) ++ ")"

end AbiType

namespace AbiValue

/-- A 64-bit number. -/
def ofUInt64 (value : UInt64) : AbiValue :=
  .uint (BitVec.ofNat 256 value.toNat)

/-- A 32-bit number. -/
def ofUInt32 (value : UInt32) : AbiValue :=
  .uint (BitVec.ofNat 256 value.toNat)

/-- A 16-bit number. -/
def ofUInt16 (value : UInt16) : AbiValue :=
  .uint (BitVec.ofNat 256 value.toNat)

/-- A byte string of fixed length. -/
def ofFixed {width : Nat} (fixed : FixedBytes width) : AbiValue :=
  .fixedBytes fixed.bytes

/-- The address in a value. -/
def address? : AbiValue → Option Address
  | .address value => some value
  | _ => none

/-- The truth value in a value. -/
def bool? : AbiValue → Option Bool
  | .bool value => some value
  | _ => none

/-- The number in a value. -/
def uint? : AbiValue → Option U256
  | .uint value => some value
  | _ => none

/-- The low 64 bits of the number in a value. -/
def uint64? (value : AbiValue) : Option UInt64 :=
  (fun number => UInt64.ofNat number.toNat) <$> value.uint?

/-- The low 32 bits of the number in a value. -/
def uint32? (value : AbiValue) : Option UInt32 :=
  (fun number => UInt32.ofNat number.toNat) <$> value.uint?

/-- The low 16 bits of the number in a value. -/
def uint16? (value : AbiValue) : Option UInt16 :=
  (fun number => UInt16.ofNat number.toNat) <$> value.uint?

/-- The low 8 bits of the number in a value. -/
def uint8? (value : AbiValue) : Option UInt8 :=
  (fun number => UInt8.ofNat number.toNat) <$> value.uint?

/-- The byte string of fixed length in a value. -/
def fixed? (width : Nat) : AbiValue → Option (FixedBytes width)
  | .fixedBytes value => FixedBytes.ofBytes? value
  | _ => none

/-- The byte string in a value. -/
def bytes? : AbiValue → Option Bytes
  | .bytes value => some value
  | _ => none

/-- The items of an array. -/
def array? : AbiValue → Option (List AbiValue)
  | .array items => some items
  | _ => none

end AbiValue

/-- The first four bytes of the hash of a signature. -/
def selectorOf (signature : String) : Bytes :=
  (Keccak256.hashText signature).bytes.take 4

end Valset
