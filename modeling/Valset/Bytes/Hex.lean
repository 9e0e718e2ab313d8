import Valset.Bytes

/-!
# Hexadecimal text

Two digits per byte, written in lower case and read in either case. `decode` is strict: no white
space, no marker and an even number of digits.
-/

namespace Valset
namespace Hex

/-- Why a text is not the hexadecimal form of a byte string. -/
inductive Error
  | oddLength
  | invalidCharacter (byte : UInt8) (position : Nat)
deriving DecidableEq, Repr

/-- The digit of a number below 16. -/
def digit (value : Nat) : Char :=
  if value < 10 then Char.ofNat ('0'.toNat + value) else Char.ofNat ('a'.toNat + (value - 10))

/-- The value of a digit in either case. -/
def digitValue? (c : Char) : Option Nat :=
  if '0' ≤ c ∧ c ≤ '9' then some (c.toNat - '0'.toNat)
  else if 'a' ≤ c ∧ c ≤ 'f' then some (c.toNat - 'a'.toNat + 10)
  else if 'A' ≤ c ∧ c ≤ 'F' then some (c.toNat - 'A'.toNat + 10)
  else none

/-- The two digits of one byte. -/
def byteDigits (byte : UInt8) : List Char :=
  [digit (byte.toNat / 16), digit (byte.toNat % 16)]

/-- The digits of a byte string. -/
def encodeChars (bytes : Bytes) : List Char :=
  bytes.flatMap byteDigits

/-- The digits of a byte string, without a marker. -/
def encode (bytes : Bytes) : String :=
  String.ofList (encodeChars bytes)

/-- The digits of a byte string behind the marker `0x`. -/
def encode0x (bytes : Bytes) : String :=
  "0x" ++ encode bytes

/-- The value of a digit given as a byte of the text. -/
def byteDigitValue? (byte : UInt8) : Option Nat :=
  digitValue? (Char.ofNat byte.toNat)

/-- Reads the digits pair by pair; `position` counts the bytes of the text read so far. -/
def decodeBytes (position : Nat) : Bytes → Except Error Bytes
  | [] => .ok []
  | [_] => .error .oddLength
  | high :: low :: rest =>
    match byteDigitValue? high, byteDigitValue? low with
    | some h, some l => (UInt8.ofNat (16 * h + l) :: ·) <$> decodeBytes (position + 2) rest
    | none, _ => .error (.invalidCharacter high position)
    | some _, none => .error (.invalidCharacter low (position + 1))

/-- Reads digits, an odd count of which is refused before any of them is looked at. -/
def decode (text : String) : Except Error Bytes :=
  let bytes := Bytes.ofText text
  if bytes.length % 2 = 1 then .error .oddLength else decodeBytes 0 bytes

/-- Drops every marker `0x` at the front. -/
def dropMarkers : List Char → List Char
  | '0' :: 'x' :: rest => dropMarkers rest
  | rest => rest

/-- Drops one marker `0x` at the front, if there is one. -/
def dropMarker : List Char → List Char
  | '0' :: 'x' :: rest => rest
  | rest => rest

/-- Reads digits behind any number of markers `0x`. -/
def decodeMarked (text : String) : Except Error Bytes :=
  decode (String.ofList (dropMarkers text.toList))

/-- Reads digits behind at most one marker `0x`. -/
def decode0x (text : String) : Except Error Bytes :=
  decode (String.ofList (dropMarker text.toList))

/-- The digits of a number without leading zeros, behind `0x`; zero is `0x0`. -/
def ofNat (value : Nat) : String :=
  "0x" ++ String.ofList (Nat.toDigits 16 value)

end Hex

/-- The text `0x…` of a fixed byte string. -/
def FixedBytes.toHex {width : Nat} (fixed : FixedBytes width) : String :=
  Hex.encode0x fixed.bytes

end Valset
