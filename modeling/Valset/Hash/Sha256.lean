import Valset.Bytes

/-!
# SHA-256

The hash behind identifiers: the checksum of their text form, validation ids and conversion ids.
A message is padded to whole blocks of sixteen words, and each block is mixed into eight words.
-/

namespace Valset
namespace Sha256

/-- The eight words carried from block to block. -/
structure State where
  a : UInt32
  b : UInt32
  c : UInt32
  d : UInt32
  e : UInt32
  f : UInt32
  g : UInt32
  h : UInt32

/-- The words before the first block. -/
def initial : State :=
  ⟨0x6a09e667, 0xbb67ae85, 0x3c6ef372, 0xa54ff53a,
    0x510e527f, 0x9b05688c, 0x1f83d9ab, 0x5be0cd19⟩

/-- One constant for each round. -/
def roundConstants : Array UInt32 :=
  #[
    0x428a2f98, 0x71374491, 0xb5c0fbcf, 0xe9b5dba5, 0x3956c25b, 0x59f111f1,
    0x923f82a4, 0xab1c5ed5, 0xd807aa98, 0x12835b01, 0x243185be, 0x550c7dc3,
    0x72be5d74, 0x80deb1fe, 0x9bdc06a7, 0xc19bf174, 0xe49b69c1, 0xefbe4786,
    0x0fc19dc6, 0x240ca1cc, 0x2de92c6f, 0x4a7484aa, 0x5cb0a9dc, 0x76f988da,
    0x983e5152, 0xa831c66d, 0xb00327c8, 0xbf597fc7, 0xc6e00bf3, 0xd5a79147,
    0x06ca6351, 0x14292967, 0x27b70a85, 0x2e1b2138, 0x4d2c6dfc, 0x53380d13,
    0x650a7354, 0x766a0abb, 0x81c2c92e, 0x92722c85, 0xa2bfe8a1, 0xa81a664b,
    0xc24b8b70, 0xc76c51a3, 0xd192e819, 0xd6990624, 0xf40e3585, 0x106aa070,
    0x19a4c116, 0x1e376c08, 0x2748774c, 0x34b0bcb5, 0x391c0cb3, 0x4ed8aa4a,
    0x5b9cca4f, 0x682e6ff3, 0x748f82ee, 0x78a5636f, 0x84c87814, 0x8cc70208,
    0x90befffa, 0xa4506ceb, 0xbef9a3f7, 0xc67178f2]

/-- The bits of a word turned to the right. -/
@[inline] def rotateRight (word turn : UInt32) : UInt32 :=
  (word >>> turn) ||| (word <<< (32 - turn))

/-- Word `t` of the schedule, made from earlier ones. -/
def nextWord (schedule : Array UInt32) (t : Nat) : UInt32 :=
  let w15 := schedule.getD (t - 15) 0
  let w2 := schedule.getD (t - 2) 0
  let s0 := rotateRight w15 7 ^^^ rotateRight w15 18 ^^^ (w15 >>> 3)
  let s1 := rotateRight w2 17 ^^^ rotateRight w2 19 ^^^ (w2 >>> 10)
  schedule.getD (t - 16) 0 + s0 + schedule.getD (t - 7) 0 + s1

/-- Adds `count` words to a schedule. -/
def extend : (count : Nat) → Array UInt32 → Array UInt32
  | 0, schedule => schedule
  | count + 1, schedule => extend count (schedule.push (nextWord schedule schedule.size))

/-- One round with its schedule word and constant. -/
@[inline] def round (s : State) (word constant : UInt32) : State :=
  let s1 := rotateRight s.e 6 ^^^ rotateRight s.e 11 ^^^ rotateRight s.e 25
  let choice := (s.e &&& s.f) ^^^ ((~~~ s.e) &&& s.g)
  let t1 := s.h + s1 + choice + constant + word
  let s0 := rotateRight s.a 2 ^^^ rotateRight s.a 13 ^^^ rotateRight s.a 22
  let majority := (s.a &&& s.b) ^^^ (s.a &&& s.c) ^^^ (s.b &&& s.c)
  ⟨t1 + (s0 + majority), s.a, s.b, s.c, s.d + t1, s.e, s.f, s.g⟩

/-- The last `remaining` of the 64 rounds. -/
def rounds (schedule : Array UInt32) : (remaining : Nat) → State → State
  | 0, s => s
  | remaining + 1, s =>
    let t := 63 - remaining
    rounds schedule remaining
      (round s (schedule.getD t 0) (roundConstants.getD t 0))

/-- Mixes a block of sixteen words into the state. -/
def compress (s : State) (block : Array UInt32) : State :=
  let r := rounds (extend 48 block) 64 s
  ⟨s.a + r.a, s.b + r.b, s.c + r.c, s.d + r.d, s.e + r.e, s.f + r.f, s.g + r.g, s.h + r.h⟩

/-- The message, a one bit, zeros up to a whole block, and the length in bits. -/
def pad (message : Bytes) : Bytes :=
  let size := message.length
  message ++ 0x80 :: Bytes.zeros ((119 - size % 64) % 64) ++ Bytes.ofNat 8 (8 * size)

/-- The words of a byte string, four bytes each. -/
def words : Bytes → Array UInt32 → Array UInt32
  | x :: y :: z :: w :: rest, acc =>
    words rest
      (acc.push ((x.toUInt32 <<< 24) ||| (y.toUInt32 <<< 16) ||| (z.toUInt32 <<< 8) ||| w.toUInt32))
  | _, acc => acc

/-- Mixes all blocks of a padded message into the state. -/
def absorb (s : State) (padded : Bytes) : State :=
  (Bytes.chunks 64 padded).foldl (fun s block => compress s (words block #[])) s

/-- The bytes of a state. -/
def State.bytes (s : State) : Bytes :=
  [s.a, s.b, s.c, s.d, s.e, s.f, s.g, s.h].flatMap fun word => Bytes.ofNat 4 word.toNat

/-- The hash of a message. -/
def hash (message : Bytes) : Hash32 :=
  ⟨(absorb initial (pad message)).bytes, by simp [State.bytes]⟩

end Sha256
end Valset
