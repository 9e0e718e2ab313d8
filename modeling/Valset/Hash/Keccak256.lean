import Valset.Bytes

/-!
# Keccak-256

The hash behind function selectors, event topics, account addresses and keystore checks. A sponge
of twenty-five 64-bit lanes takes up 136 bytes at a time; the padding starts with the byte 1.
-/

namespace Valset
namespace Keccak256

/-- The number of bytes taken up between two permutations. -/
def rate : Nat := 136

/-- One constant for each round. -/
def roundConstants : List UInt64 :=
  [
    0x0000000000000001, 0x0000000000008082, 0x800000000000808a, 0x8000000080008000,
    0x000000000000808b, 0x0000000080000001, 0x8000000080008081, 0x8000000000008009,
    0x000000000000008a, 0x0000000000000088, 0x0000000080008009, 0x000000008000000a,
    0x000000008000808b, 0x800000000000008b, 0x8000000000008089, 0x8000000000008003,
    0x8000000000008002, 0x8000000000000080, 0x000000000000800a, 0x800000008000000a,
    0x8000000080008081, 0x8000000000008080, 0x0000000080000001, 0x8000000080008008]

/-- For each lane, the lane that moves there and how far it is turned on the way. -/
def moves : Array (Nat × UInt64) :=
  #[
    (0, 0), (6, 44), (12, 43), (18, 21), (24, 14), (3, 28), (9, 20), (10, 3), (16, 45), (22, 61),
    (1, 1), (7, 6), (13, 25), (19, 8), (20, 18), (4, 27), (5, 36), (11, 10), (17, 15), (23, 56),
    (2, 62), (8, 55), (14, 39), (15, 41), (21, 2)]

/-- The bits of a lane turned to the left. -/
@[inline] def rotateLeft (lane turn : UInt64) : UInt64 :=
  if turn = 0 then lane else (lane <<< turn) ||| (lane >>> (64 - turn))

/-- The lane at an index. -/
@[inline] def lane (lanes : Array UInt64) (index : Nat) : UInt64 :=
  lanes.getD index 0

/-- One round of the permutation. -/
def round (lanes : Array UInt64) (constant : UInt64) : Array UInt64 :=
  let column (x : Nat) : UInt64 :=
    lane lanes x ^^^ lane lanes (x + 5) ^^^ lane lanes (x + 10) ^^^ lane lanes (x + 15) ^^^
      lane lanes (x + 20)
  let columns := Array.ofFn fun x : Fin 5 => column x
  let effect := Array.ofFn fun x : Fin 5 =>
    lane columns ((x.val + 4) % 5) ^^^ rotateLeft (lane columns ((x.val + 1) % 5)) 1
  let moved := moves.map fun (source, turn) =>
    rotateLeft (lane lanes source ^^^ lane effect (source % 5)) turn
  let mixed := Array.ofFn fun index : Fin 25 =>
    let row := 5 * (index.val / 5)
    let x := index.val % 5
    lane moved index ^^^
      ((~~~ lane moved (row + (x + 1) % 5)) &&& lane moved (row + (x + 2) % 5))
  mixed.modify 0 (· ^^^ constant)

/-- The permutation between two pieces of the message. -/
def permute (lanes : Array UInt64) : Array UInt64 :=
  roundConstants.foldl round lanes

/-- The number whose least significant byte comes first. -/
def littleEndian (bytes : Bytes) : Nat :=
  Bytes.toNat bytes.reverse

/-- Adds a piece of the message to the lanes and permutes them. -/
def absorbPiece (lanes : Array UInt64) (piece : Bytes) : Array UInt64 :=
  let words := (Bytes.chunks 8 piece).map fun word => UInt64.ofNat (littleEndian word)
  permute (lanes.mapIdx fun index value => value ^^^ words.getD index 0)

/-- The message filled up to whole pieces. -/
def pad (message : Bytes) : Bytes :=
  let missing := rate - message.length % rate
  if missing = 1 then message ++ [0x81]
  else message ++ 0x01 :: Bytes.zeros (missing - 2) ++ [0x80]

/-- The first 32 bytes of the lanes. -/
def squeeze (lanes : Array UInt64) : Hash32 :=
  FixedBytes.fit
    ([0, 1, 2, 3].flatMap fun index => (Bytes.ofNat 8 (lane lanes index).toNat).reverse)

/-- The hash of a message. -/
def hash (message : Bytes) : Hash32 :=
  squeeze ((Bytes.chunks rate (pad message)).foldl absorbPiece (Array.replicate 25 0))

/-- The hash of the UTF-8 form of a text. -/
def hashText (text : String) : Hash32 :=
  hash (Bytes.ofText text)

end Keccak256
end Valset
