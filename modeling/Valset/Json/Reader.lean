import Valset.Bytes.Hex
import Valset.Json

/-!
# Reading domain values from JSON

A reader turns a JSON value into a value of a type or refuses it. Records are read from objects,
whose unknown fields are left alone, or from arrays with one item for each field.
-/

namespace Valset
namespace Json

/-- Turns a JSON value into a value of a type, or refuses it. -/
abbrev Reader (α : Type) := Json → Option α

/-- Reads a text. -/
def readString : Reader String
  | .string text => some text
  | _ => none

/-- Reads a truth value. -/
def readBool : Reader Bool
  | .bool value => some value
  | _ => none

/-- Reads a whole number below a bound. -/
def readNatBelow (bound : Nat) : Reader Nat
  | .number (.whole value) =>
    if 0 ≤ value ∧ value.toNat < bound then some value.toNat else none
  | _ => none

/-- Reads an 8-bit number. -/
def readUInt8 : Reader UInt8 :=
  fun value => UInt8.ofNat <$> readNatBelow UInt8.size value

/-- Reads a 16-bit number. -/
def readUInt16 : Reader UInt16 :=
  fun value => UInt16.ofNat <$> readNatBelow UInt16.size value

/-- Reads a 32-bit number. -/
def readUInt32 : Reader UInt32 :=
  fun value => UInt32.ofNat <$> readNatBelow UInt32.size value

/-- Reads a 64-bit number. -/
def readUInt64 : Reader UInt64 :=
  fun value => UInt64.ofNat <$> readNatBelow UInt64.size value

/-- Reads each item of an array. -/
def readList {α : Type} (read : Reader α) : Reader (List α)
  | .array items => items.mapM read
  | _ => none

/-- Reads a value that may be absent. -/
def readOption {α : Type} (read : Reader α) : Reader (Option α)
  | .null => some none
  | value => some <$> read value

/-- Reads one of a list of names. -/
def readName {α : Type} (names : List (String × α)) : Reader α
  | .string text => names.lookup text
  | .object [(text, .null)] => names.lookup text
  | _ => none

/-! ## Byte strings -/

/-- Collects digits into bytes. White space between digits is skipped; `half` holds the digit that
waits for its partner. -/
def collectNibbles (half : Option Nat) : List Char → Option Bytes
  | [] => some []
  | c :: rest =>
    if c = ' ' ∨ c = '\r' ∨ c = '\n' ∨ c = '\t' then collectNibbles half rest
    else do
      let value ← Hex.digitValue? c
      match half with
      | none => collectNibbles (some value) rest
      | some high => (UInt8.ofNat (16 * high + value) :: ·) <$> collectNibbles none rest

/-- Reads the text of a number of bytes behind at most one marker `0x`; of an odd count of
characters the first stands for half a byte. -/
def nibbles (chars : List Char) : Option Bytes :=
  collectNibbles (if chars.length % 2 = 1 then some 0 else none) chars

/-- Reads a fixed byte string from its text, two characters for each byte. -/
def readFixed (width : Nat) : Reader (FixedBytes width)
  | .string text =>
    let chars := Hex.dropMarker text.toList
    if (String.ofList chars).utf8ByteSize = 2 * width then FixedBytes.fit <$> nibbles chars
    else none
  | _ => none

/-- Reads an address. -/
def readAddress : Reader Address :=
  readFixed 20

/-- Reads a hash. -/
def readHash32 : Reader Hash32 :=
  readFixed 32

/-- Reads a 256-bit number from its hexadecimal text. -/
def readU256 : Reader U256
  | .string text =>
    let chars := Hex.dropMarker text.toList
    let size := (String.ofList chars).utf8ByteSize
    if 0 < size ∧ size ≤ 64 then
      (fun bytes => BitVec.ofNat 256 (Bytes.toNat bytes)) <$> nibbles chars
    else none
  | _ => none

/-- Reads a byte string of any length behind at most one marker `0x`. -/
def readBytes : Reader Bytes
  | .string text => (Hex.decode0x text).toOption
  | _ => none

/-- The text of a byte string. -/
def ofBytes (bytes : Bytes) : Json :=
  .string (Hex.encode0x bytes)

/-- The text of a fixed byte string. -/
def ofFixed {width : Nat} (fixed : FixedBytes width) : Json :=
  .string fixed.toHex

/-- The text of a 256-bit number. -/
def ofU256 (value : U256) : Json :=
  .string (Hex.ofNat value.toNat)

/-! ## Records -/

/-- Where the fields of a record come from: an object, or an array with one item for each field. -/
structure Source where
  values : List (String × Json)
  positional : Bool

/-- How often a key occurs. -/
def countKey (key : String) (fields : List (String × Json)) : Nat :=
  fields.countP (·.1 == key)

/-- The source of a record with the given field names. No field may be given twice, and an array may
hold no item beyond the last field. -/
def source? (names : List String) : Json → Option Source
  | .object fields =>
    if names.any fun name => 1 < countKey name fields then none else some ⟨fields, false⟩
  | .array items =>
    if names.length < items.length then none else some ⟨names.zip items, true⟩
  | _ => none

namespace Source

/-- The value of a field. -/
def value? (source : Source) (name : String) : Option Json :=
  source.values.lookup name

/-- Reads a field that must be there. -/
def required {α : Type} (source : Source) (name : String) (read : Reader α) : Option α := do
  read (← source.value? name)

/-- Reads a field that may be left out of an object, or be null. -/
def optional {α : Type} (source : Source) (name : String) (read : Reader α) :
    Option (Option α) :=
  match source.value? name with
  | some value => readOption read value
  | none => if source.positional then none else some none

/-- Reads a field that has a default. -/
def defaulted {α : Type} (source : Source) (name : String) (read : Reader α) (default : α) :
    Option α :=
  match source.value? name with
  | some value => read value
  | none => some default

end Source
end Json
end Valset
