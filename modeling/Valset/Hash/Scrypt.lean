import Valset.Hash.Sha256

/-!
# Password stretching

HMAC over SHA-256, and the derivation of keys from passwords by repeated keyed hashing (PBKDF2) and
by filling a large memory (RFC 7914): blocks of sixteen words are mixed by eight rounds of Salsa20,
and rows of such blocks are mixed by going through a table of earlier rows in an order that depends
on their content.
-/

namespace Valset

/-! ## Keyed hashing -/

namespace Hmac

/-- The length of a block of the hash. -/
def blockSize : Nat := 64

/-- A key as a whole block: hashed when it is longer, then filled up with zeros. -/
def blockKey (key : Bytes) : Bytes :=
  Bytes.fit blockSize (if key.length > blockSize then (Sha256.hash key).bytes else key)

/-- The hash of a message under a key. -/
def hash (key message : Bytes) : Hash32 :=
  let block := blockKey key
  let inner := Sha256.hash (block.map (· ^^^ 0x36) ++ message)
  Sha256.hash (block.map (· ^^^ 0x5c) ++ inner.bytes)

end Hmac

namespace Pbkdf2

/-- Hashes on from the last hash and adds each result to the sum. -/
def stretch (password : Bytes) : (rounds : Nat) → (last sum : Bytes) → Bytes
  | 0, _, sum => sum
  | rounds + 1, last, sum =>
    let next := (Hmac.hash password last).bytes
    stretch password rounds next (sum.zipWith (· ^^^ ·) next)

/-- The block with a given number, counted from one. -/
def block (password salt : Bytes) (rounds index : Nat) : Bytes :=
  let first := (Hmac.hash password (salt ++ Bytes.ofNat 4 index)).bytes
  stretch password (rounds - 1) first first

/-- A key of `size` bytes from a password and a salt. -/
def derive (password salt : Bytes) (rounds size : Nat) : Bytes :=
  ((List.range ((size + 31) / 32)).flatMap fun index =>
    block password salt rounds (index + 1)).take size

end Pbkdf2

/-! ## Stretching in memory -/

namespace Scrypt

/-- A block of sixteen words. -/
structure SalsaBlock where
  x0 : UInt32
  x1 : UInt32
  x2 : UInt32
  x3 : UInt32
  x4 : UInt32
  x5 : UInt32
  x6 : UInt32
  x7 : UInt32
  x8 : UInt32
  x9 : UInt32
  x10 : UInt32
  x11 : UInt32
  x12 : UInt32
  x13 : UInt32
  x14 : UInt32
  x15 : UInt32

namespace SalsaBlock

/-- The words of two blocks put together one by one. -/
@[inline] def zipWith (f : UInt32 → UInt32 → UInt32) (x y : SalsaBlock) : SalsaBlock :=
  ⟨f x.x0 y.x0, f x.x1 y.x1, f x.x2 y.x2, f x.x3 y.x3, f x.x4 y.x4, f x.x5 y.x5, f x.x6 y.x6,
    f x.x7 y.x7, f x.x8 y.x8, f x.x9 y.x9, f x.x10 y.x10, f x.x11 y.x11, f x.x12 y.x12,
    f x.x13 y.x13, f x.x14 y.x14, f x.x15 y.x15⟩

/-- The bits in which two blocks differ. -/
def xor (x y : SalsaBlock) : SalsaBlock :=
  zipWith (· ^^^ ·) x y

/-- The sums of the words of two blocks. -/
def add (x y : SalsaBlock) : SalsaBlock :=
  zipWith (· + ·) x y

/-- A word, the sum of two others turned to the left being mixed into it. -/
@[inline] def mixWord (target left right turn : UInt32) : UInt32 :=
  let sum := left + right
  target ^^^ ((sum <<< turn) ||| (sum >>> (32 - turn)))

/-- One round for the columns and one for the rows of the square of words. -/
def doubleRound (b : SalsaBlock) : SalsaBlock :=
  let x4 := mixWord b.x4 b.x0 b.x12 7
  let x8 := mixWord b.x8 x4 b.x0 9
  let x12 := mixWord b.x12 x8 x4 13
  let x0 := mixWord b.x0 x12 x8 18
  let x9 := mixWord b.x9 b.x5 b.x1 7
  let x13 := mixWord b.x13 x9 b.x5 9
  let x1 := mixWord b.x1 x13 x9 13
  let x5 := mixWord b.x5 x1 x13 18
  let x14 := mixWord b.x14 b.x10 b.x6 7
  let x2 := mixWord b.x2 x14 b.x10 9
  let x6 := mixWord b.x6 x2 x14 13
  let x10 := mixWord b.x10 x6 x2 18
  let x3 := mixWord b.x3 b.x15 b.x11 7
  let x7 := mixWord b.x7 x3 b.x15 9
  let x11 := mixWord b.x11 x7 x3 13
  let x15 := mixWord b.x15 x11 x7 18
  let y1 := mixWord x1 x0 x3 7
  let y2 := mixWord x2 y1 x0 9
  let y3 := mixWord x3 y2 y1 13
  let y0 := mixWord x0 y3 y2 18
  let y6 := mixWord x6 x5 x4 7
  let y7 := mixWord x7 y6 x5 9
  let y4 := mixWord x4 y7 y6 13
  let y5 := mixWord x5 y4 y7 18
  let y11 := mixWord x11 x10 x9 7
  let y8 := mixWord x8 y11 x10 9
  let y9 := mixWord x9 y8 y11 13
  let y10 := mixWord x10 y9 y8 18
  let y12 := mixWord x12 x15 x14 7
  let y13 := mixWord x13 y12 x15 9
  let y14 := mixWord x14 y13 y12 13
  let y15 := mixWord x15 y14 y13 18
  ⟨y0, y1, y2, y3, y4, y5, y6, y7, y8, y9, y10, y11, y12, y13, y14, y15⟩

/-- The mixed block: eight rounds added to the block itself. -/
def mix (block : SalsaBlock) : SalsaBlock :=
  block.add block.doubleRound.doubleRound.doubleRound.doubleRound

/-- A word from its four bytes, the lowest one first. -/
def wordOf (bytes : Bytes) : UInt32 :=
  UInt32.ofNat (Bytes.toNat bytes.reverse)

/-- A block from its sixty-four bytes. -/
def ofBytes (bytes : Bytes) : SalsaBlock :=
  let words := ((Bytes.chunks 4 bytes).map wordOf).toArray
  let word (index : Nat) : UInt32 := words.getD index 0
  ⟨word 0, word 1, word 2, word 3, word 4, word 5, word 6, word 7, word 8, word 9, word 10,
    word 11, word 12, word 13, word 14, word 15⟩

/-- The bytes of a block. -/
def bytes (b : SalsaBlock) : Bytes :=
  [b.x0, b.x1, b.x2, b.x3, b.x4, b.x5, b.x6, b.x7, b.x8, b.x9, b.x10, b.x11, b.x12, b.x13, b.x14,
    b.x15].flatMap fun word => (Bytes.ofNat 4 word.toNat).reverse

/-- A block of zeros. -/
def zero : SalsaBlock :=
  ofBytes []

end SalsaBlock

/-- A row of blocks. -/
abbrev Row := List SalsaBlock

/-- Mixes each block of a row together with the mixed one before it. -/
def chain (last : SalsaBlock) : Row → Row
  | [] => []
  | block :: rest =>
    let mixed := (last.xor block).mix
    mixed :: chain mixed rest

/-- The blocks at even places of a row, and those at odd places. -/
def unzip : Row → Row × Row
  | [] => ([], [])
  | [block] => ([block], [])
  | even :: odd :: rest =>
    let (evens, odds) := unzip rest
    (even :: evens, odd :: odds)

/-- A row mixed once; those at even places come first. -/
def mixRow (row : Row) : Row :=
  let (evens, odds) := unzip (chain (row.getLast?.getD .zero) row)
  evens ++ odds

/-- Mixes a row again and again and keeps each state before. -/
def fill : (count : Nat) → (table : Array Row) → Row → Array Row × Row
  | 0, table, row => (table, row)
  | count + 1, table, row => fill count (table.push row) (mixRow row)

/-- The number in a row that says which one of the table comes next. -/
def pick (size : Nat) (row : Row) : Nat :=
  let last := row.getLast?.getD .zero
  (last.x0.toNat + Nat.pow 2 32 * last.x1.toNat) % size

/-- Mixes a row again and again, each time together with one of the table. -/
def revisit (table : Array Row) : (count : Nat) → Row → Row
  | 0, row => row
  | count + 1, row =>
    let other := table.getD (pick table.size row) []
    revisit table count (mixRow (row.zipWith SalsaBlock.xor other))

/-- The costly mixing of one row, with a table of `cost` rows. -/
def mixLong (cost : Nat) (row : Row) : Row :=
  let (table, row) := fill cost #[] row
  revisit table cost row

/-- The row of some bytes. -/
def rowOf (bytes : Bytes) : Row :=
  (Bytes.chunks 64 bytes).map SalsaBlock.ofBytes

/-- How much work a derivation takes: rows of `2 * width` blocks, `lanes` of them, each with a table
of `2 ^ logCost` rows. -/
structure Params where
  logCost : Nat
  width : Nat
  lanes : Nat
deriving DecidableEq, Repr

/-- Whether a derivation with these parameters is defined and within the sizes of a machine with
64-bit addresses. -/
def Params.isValid (params : Params) : Bool :=
  0 < params.width && 0 < params.lanes && params.logCost < 64 &&
    128 * params.width * Nat.pow 2 params.logCost < UInt64.size &&
    params.logCost < 16 * params.width &&
    params.width * params.lanes < Nat.pow 2 30

/-- A key of `size` bytes from a password and a salt. -/
def derive (params : Params) (password salt : Bytes) (size : Nat) : Bytes :=
  let laneSize := 128 * params.width
  let start := Pbkdf2.derive password salt 1 (laneSize * params.lanes)
  let lanes := (Bytes.chunks laneSize start).map fun lane =>
    (mixLong (Nat.pow 2 params.logCost) (rowOf lane)).flatMap (·.bytes)
  Pbkdf2.derive password lanes.flatten 1 size

end Scrypt
end Valset
