import Valset.Bytes

/-!
# UTF-8

Texts from byte strings: strictly, or with a replacement character for each piece that is no
character.
-/

namespace Valset
namespace Text

/-- The text with a given UTF-8 form. -/
def ofUtf8? (bytes : Bytes) : Option String :=
  String.fromUTF8? ⟨bytes.toArray⟩

/-- Whether a byte continues a character. -/
def isContinuation (byte : UInt8) : Bool :=
  0x80 ≤ byte && byte ≤ 0xbf

/-- The bounds of the byte behind a first byte, and the number of further bytes behind that one. -/
def secondByte? (first : UInt8) : Option (UInt8 × UInt8 × Nat) :=
  if 0xc2 ≤ first ∧ first ≤ 0xdf then some (0x80, 0xbf, 0)
  else if first = 0xe0 then some (0xa0, 0xbf, 1)
  else if first = 0xed then some (0x80, 0x9f, 1)
  else if 0xe1 ≤ first ∧ first ≤ 0xef then some (0x80, 0xbf, 1)
  else if first = 0xf0 then some (0x90, 0xbf, 2)
  else if 0xf1 ≤ first ∧ first ≤ 0xf3 then some (0x80, 0xbf, 2)
  else if first = 0xf4 then some (0x80, 0x8f, 2)
  else none

/-- The value of the six low bits. -/
def lowBits (byte : UInt8) : Nat :=
  byte.toNat % 64

/-- Reads further bytes of a character: its number when all are there, and the rest. -/
def continueChar (value : Nat) : (missing : Nat) → Bytes → Option Nat × Bytes
  | 0, rest => (some value, rest)
  | _ + 1, [] => (none, [])
  | missing + 1, byte :: rest =>
    if isContinuation byte then continueChar (value * 64 + lowBits byte) missing rest
    else (none, byte :: rest)

/-- The first character of a byte string that is not empty, and the rest. A piece that breaks off
within a character counts as one. -/
def takeLossy (first : UInt8) (rest : Bytes) : Char × Bytes :=
  let replacement := Char.ofNat 0xfffd
  if first < 0x80 then (Char.ofNat first.toNat, rest)
  else
    match secondByte? first, rest with
    | some (low, high, further), second :: tail =>
      if low ≤ second ∧ second ≤ high then
        let lead := first.toNat % (if further = 0 then 32 else if further = 1 then 16 else 8)
        match continueChar (lead * 64 + lowBits second) further tail with
        | (some value, rest) => (Char.ofNat value, rest)
        | (none, rest) => (replacement, rest)
      else (replacement, rest)
    | _, rest => (replacement, rest)

/-- The characters of a byte string, at most `fuel` of them. -/
def decodeLossyChars : (fuel : Nat) → Bytes → List Char
  | 0, _ => []
  | _ + 1, [] => []
  | fuel + 1, byte :: rest =>
    let (c, rest) := takeLossy byte rest
    c :: decodeLossyChars fuel rest

/-- The text of a byte string, with a replacement character for each piece that is no character. -/
def decodeLossy (bytes : Bytes) : String :=
  String.ofList (decodeLossyChars bytes.length bytes)

end Text
end Valset
