/-!
# Byte strings

Byte strings as lists of bytes, their reading and writing as big-endian numbers, and byte strings of
a fixed length such as addresses and hashes.
-/

namespace Valset

/-- A byte string. -/
abbrev Bytes := List UInt8

namespace Bytes

/-- The lowest `width` bytes of a number, most significant byte first. -/
def ofNat : (width : Nat) → (value : Nat) → Bytes
  | 0, _ => []
  | width + 1, value => ofNat width (value / 256) ++ [UInt8.ofNat value]

/-- The number whose base-256 digits are the given bytes, most significant byte first. -/
def toNat (bytes : Bytes) : Nat :=
  bytes.foldl (fun value byte => value * 256 + byte.toNat) 0

@[simp] theorem length_ofNat (width value : Nat) : (ofNat width value).length = width := by
  induction width generalizing value with
  | zero => rfl
  | succ width ih => simp [ofNat, ih]

/-- Zero bytes. -/
def zeros (count : Nat) : Bytes :=
  List.replicate count 0

/-- The first `width` bytes, filled up with zero bytes on the right. -/
def fit (width : Nat) (bytes : Bytes) : Bytes :=
  bytes.take width ++ zeros (width - bytes.length)

@[simp] theorem length_fit (width : Nat) (bytes : Bytes) : (fit width bytes).length = width := by
  simp [fit, zeros]
  omega

/-- The characters of a text as bytes of its UTF-8 form. -/
def ofText (text : String) : Bytes :=
  text.toUTF8.toList

/-- Consecutive pieces of `width` bytes; the last one may be shorter. -/
def chunks (width : Nat) (bytes : Bytes) : List Bytes :=
  go bytes.length bytes
where
  /-- Cuts off at most `fuel` pieces. -/
  go : Nat → Bytes → List Bytes
    | 0, _ => []
    | fuel + 1, rest =>
      if rest.isEmpty then []
      else rest.take width :: go fuel (rest.drop width)

end Bytes

/-- A byte string of exactly `width` bytes. -/
structure FixedBytes (width : Nat) where
  bytes : Bytes
  length_bytes : bytes.length = width
deriving DecidableEq

namespace FixedBytes

variable {width : Nat}

/-- The byte string itself, when it has the right length. -/
def ofBytes? (bytes : Bytes) : Option (FixedBytes width) :=
  if h : bytes.length = width then some ⟨bytes, h⟩ else none

/-- The first bytes of a byte string, filled up with zero bytes on the right. -/
def fit (bytes : Bytes) : FixedBytes width :=
  ⟨Bytes.fit width bytes, Bytes.length_fit width bytes⟩

/-- The lowest bytes of a number, most significant byte first. -/
def ofNat (value : Nat) : FixedBytes width :=
  ⟨Bytes.ofNat width value, Bytes.length_ofNat width value⟩

/-- The number whose base-256 digits are these bytes. -/
def toNat (fixed : FixedBytes width) : Nat :=
  Bytes.toNat fixed.bytes

/-- All bytes zero. -/
def zero : FixedBytes width :=
  ofNat 0

/-- Whether all bytes are zero. -/
def isZero (fixed : FixedBytes width) : Bool :=
  fixed.bytes.all (· == 0)

instance : Inhabited (FixedBytes width) :=
  ⟨zero⟩

/-- The order of byte strings of one length: byte by byte from the left. -/
def lt (left right : FixedBytes width) : Bool :=
  go left.bytes right.bytes
where
  /-- Compares byte by byte. -/
  go : Bytes → Bytes → Bool
    | x :: xs, y :: ys => x < y || (x == y && go xs ys)
    | [], _ :: _ => true
    | _, [] => false

/-- The byte strings of a list in ascending order, equal ones once. -/
def sortDistinct (items : List (FixedBytes width)) : List (FixedBytes width) :=
  items.foldl insert []
where
  /-- Puts a byte string into an ascending list, unless it is there already. -/
  insert : List (FixedBytes width) → FixedBytes width → List (FixedBytes width)
    | [], item => [item]
    | first :: rest, item =>
      if item = first then first :: rest
      else if item.lt first then item :: first :: rest
      else first :: insert rest item

end FixedBytes

/-- A 20-byte account or contract address. -/
abbrev Address := FixedBytes 20

/-- A 32-byte value: a hash, an event topic or a storage slot. -/
abbrev Hash32 := FixedBytes 32

/-- An unsigned 256-bit number. -/
abbrev U256 := BitVec 256

end Valset
