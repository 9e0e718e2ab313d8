import Valset.Bytes.Hex
import Valset.Hash.Keccak256
import Valset.Wallet.Curve

/-!
# Signing keys

A signing key is a number between zero and the number of points of the curve. Its account is the end
of the hash of its public key.
-/

namespace Valset

/-- A key that signs transactions. -/
structure PrivateKey where
  value : Nat
  pos : 0 < value
  lt_order : value < Curve.order
deriving DecidableEq

namespace PrivateKey

/-- Why a text is no key. -/
inductive Error
  | hex
  | outOfRange
deriving DecidableEq, Repr

/-- The key with a value, if it is one. -/
def ofNat? (value : Nat) : Option PrivateKey :=
  if h : 0 < value ∧ value < Curve.order then some ⟨value, h.1, h.2⟩ else none

/-- The key that bytes hold. -/
def ofBytes? (bytes : Bytes) : Option PrivateKey :=
  ofNat? (Bytes.toNat bytes)

/-- A key from random bytes. -/
def ofRandom (bytes : Bytes) : PrivateKey where
  value := Bytes.toNat bytes % (Curve.order - 1) + 1
  pos := Nat.succ_pos _
  lt_order := by
    have := Nat.mod_lt (Bytes.toNat bytes) (show 0 < Curve.order - 1 by decide)
    omega

/-- The thirty-two bytes of a key. -/
def bytes (key : PrivateKey) : Bytes :=
  Bytes.ofNat 32 key.value

/-- The digits of a key. -/
def text (key : PrivateKey) : String :=
  Hex.encode key.bytes

/-- Drops the marker `0X` at the front, if it is there. -/
def dropUpperMarker : List Char → List Char
  | '0' :: 'X' :: rest => rest
  | rest => rest

/-- Reads a key from its sixty-four digits behind any markers. -/
def parse (text : String) : Except Error PrivateKey := do
  let digits := String.ofList (dropUpperMarker (Hex.dropMarkers text.toList))
  if digits.utf8ByteSize ≠ 64 then throw .hex
  let bytes ← (Hex.decode digits).mapError fun _ => .hex
  match ofBytes? bytes with
  | some key => return key
  | none => throw .outOfRange

/-- The account of a key. -/
def address (key : PrivateKey) : Address :=
  let (x, y) := Curve.publicKey key.value
  FixedBytes.fit ((Keccak256.hash (Bytes.ofNat 32 x ++ Bytes.ofNat 32 y)).bytes.drop 12)

end PrivateKey
end Valset
