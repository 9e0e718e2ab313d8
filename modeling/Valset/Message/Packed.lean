import Valset.Message.Error

/-!
# Packed fields

Fields written one after the other without padding, numbers in big-endian order. The writer is
concatenation; the reader walks over the input and reports, when the input ends too early, the
length of the whole input and the length needed up to the end of the field.
-/

namespace Valset
namespace Packed

/-! ## Writing -/

/-- Two bytes. -/
def u16 (value : UInt16) : Bytes :=
  Bytes.ofNat 2 value.toNat

/-- Four bytes. -/
def u32 (value : UInt32) : Bytes :=
  Bytes.ofNat 4 value.toNat

/-- Eight bytes. -/
def u64 (value : UInt64) : Bytes :=
  Bytes.ofNat 8 value.toNat

/-- One byte, 1 for true. -/
def bool (value : Bool) : Bytes :=
  [if value then 1 else 0]

/-- The number of items of a list, in four bytes. -/
def count {α : Type} (items : List α) : Bytes :=
  u32 (UInt32.ofNat items.length)

/-- A byte string behind its length. -/
def counted (bytes : Bytes) : Bytes :=
  count bytes ++ bytes

/-! ## Reading -/

/-- An input and the number of bytes read so far. -/
structure Cursor where
  input : Bytes
  offset : Nat

/-- A computation that reads fields from an input. -/
abbrev Reading := ExceptT MessageError (StateM Cursor)

/-- Reads a number of bytes. -/
def take (size : Nat) : Reading Bytes := do
  let cursor ← get
  let stop := cursor.offset + size
  if cursor.input.length < stop then
    throw (.ofLengths cursor.input.length stop)
  set { cursor with offset := stop }
  return (cursor.input.drop cursor.offset).take size

/-- Reads a byte string of a fixed length. -/
def takeFixed (width : Nat) : Reading (FixedBytes width) :=
  FixedBytes.fit <$> take width

/-- Reads two bytes. -/
def takeU16 : Reading UInt16 :=
  (fun bytes => UInt16.ofNat (Bytes.toNat bytes)) <$> take 2

/-- Reads four bytes. -/
def takeU32 : Reading UInt32 :=
  (fun bytes => UInt32.ofNat (Bytes.toNat bytes)) <$> take 4

/-- Reads eight bytes. -/
def takeU64 : Reading UInt64 :=
  (fun bytes => UInt64.ofNat (Bytes.toNat bytes)) <$> take 8

/-- Reads one byte; any but zero is true. -/
def takeBool : Reading Bool :=
  (fun bytes => bytes != [0]) <$> take 1

/-- Reads a byte string behind its length. -/
def takeCounted : Reading Bytes := do
  let size ← takeU32
  take size.toNat

/-- Reads a field a number of times. -/
def takeMany {α : Type} (field : Reading α) : (count : Nat) → Reading (List α)
  | 0 => return []
  | count + 1 => do
    let item ← field
    let rest ← takeMany field count
    return item :: rest

/-- Reads fields behind their number. -/
def takeList {α : Type} (field : Reading α) : Reading (List α) := do
  let count ← takeU32
  takeMany field count.toNat

/-- Fails when bytes remain behind the last field. -/
def finish : Reading Unit := do
  let cursor ← get
  if cursor.offset ≠ cursor.input.length then
    throw (.ofLengths cursor.input.length cursor.offset)

/-- Reads from the front of an input. -/
def read {α : Type} (fields : Reading α) (input : Bytes) : Except MessageError α :=
  (fields.run ⟨input, 0⟩).1

end Packed
end Valset
