import Valset.Bytes

/-!
# Bech32 text

A readable part, the separator `1`, and five-bit groups in an alphabet of 32 characters, the last
six of which are a checksum. A text is written in lower case and read in one case throughout.
-/

namespace Valset
namespace Bech32

/-- Why a text is not in bech32, or a byte string cannot be written in it. -/
inductive Error
  | missingSeparator
  | invalidChecksum
  | invalidLength
  | invalidCharacter (c : Char)
  | mixedCase
  | invalidPadding
deriving DecidableEq, Repr

/-- The letter case seen so far. -/
inductive Case
  | upper
  | lower
  | none
deriving DecidableEq, Repr

/-- The characters of the groups 0 to 31. -/
def alphabet : List Char :=
  "qpzry9x8gf2tvdw0s3jn54khce6mua7l".toList

/-- The character of a group. -/
def groupChar (group : Nat) : Char :=
  alphabet.getD group 'q'

/-- The group of a character in either case. -/
def groupValue? (c : Char) : Option Nat :=
  alphabet.idxOf? c.toLower

/-- The number of groups in the checksum. -/
def checksumLength : Nat := 6

/-- The longest readable part in bytes. -/
def maxReadableLength : Nat := 83

/-! ## Regrouping of bits -/

/-- The bits of a number below `2 ^ width`, most significant first. -/
def bitsOf : (width : Nat) → (value : Nat) → List Bool
  | 0, _ => []
  | width + 1, value => bitsOf width (value / 2) ++ [value % 2 == 1]

/-- The number with the given bits, most significant first. -/
def ofBits (bits : List Bool) : Nat :=
  bits.foldl (fun value bit => 2 * value + bit.toNat) 0

/-- The number of the next five bits of a list; missing bits are zero. -/
def takeGroup (bits : List Bool) : Nat :=
  ofBits (bits.take 5 ++ List.replicate (5 - bits.length) false)

/-- A bit list as five-bit groups, the last one filled up with zeros. -/
def groupsOfBits : List Bool → List Nat
  | [] => []
  | bit :: rest => takeGroup (bit :: rest) :: groupsOfBits ((bit :: rest).drop 5)
termination_by bits => bits.length

/-- Bytes as five-bit groups. -/
def toGroups (bytes : Bytes) : List Nat :=
  groupsOfBits (bytes.flatMap fun byte => bitsOf 8 byte.toNat)

/-- The whole bytes of a bit list and the bits left over. -/
def bytesOfBits (bits : List Bool) : Bytes × List Bool :=
  if _ : bits.length < 8 then ([], bits)
  else
    let (bytes, left) := bytesOfBits (bits.drop 8)
    (UInt8.ofNat (ofBits (bits.take 8)) :: bytes, left)
termination_by bits.length
decreasing_by simp; omega

/-- Five-bit groups as bytes; what is left over must be fewer than five bits, all zero. -/
def ofGroups (groups : List Nat) : Except Error Bytes :=
  let (bytes, left) := bytesOfBits (groups.flatMap (bitsOf 5))
  if 5 ≤ left.length ∨ left.any id then .error .invalidPadding else .ok bytes

/-! ## Checksum -/

/-- The generator of the checksum, one word for each of the five bits carried out. -/
def generator : List Nat :=
  [0x3b6a57b2, 0x26508e6d, 0x1ea119fa, 0x3d4233dd, 0x2a1462b3]

/-- Multiplies a remainder by 32, adds a group and reduces. -/
def remainderStep (remainder group : Nat) : Nat :=
  let carried := remainder / Nat.pow 2 25
  let shifted := (remainder % Nat.pow 2 25 * 32) ^^^ group
  (generator.zip (bitsOf 5 carried).reverse).foldl
    (fun value (word, bit) => if bit then value ^^^ word else value) shifted

/-- The remainder of a list of groups. -/
def remainder (groups : List Nat) : Nat :=
  groups.foldl remainderStep 1

/-- The readable part as groups: the high bits of each byte, a zero, the low bits of each byte. -/
def expandReadable (readable : List Char) : List Nat :=
  readable.map (fun c => c.toNat / 32) ++ 0 :: readable.map (fun c => c.toNat % 32)

/-- The remainder that marks a text of the first variant. -/
def plainRemainder : Nat := 1

/-- The remainder that marks a text of the modified variant. -/
def modifiedRemainder : Nat := 0x2bc830a3

/-- The six groups that make the remainder of a text the plain one. -/
def checksum (readable : List Char) (groups : List Nat) : List Nat :=
  let value :=
    remainder (expandReadable readable ++ groups ++ List.replicate checksumLength 0) ^^^
      plainRemainder
  (List.range checksumLength).map fun index => value / Nat.pow 2 (5 * (5 - index)) % 32

/-- Whether the groups of a text, checksum included, belong to either variant. -/
def checksumHolds (readable : List Char) (groups : List Nat) : Bool :=
  let value := remainder (expandReadable readable ++ groups)
  value == plainRemainder || value == modifiedRemainder

/-! ## Texts -/

/-- The case of the readable part, given as the bytes of its UTF-8 form. -/
def readableCase (seen : Case) : Bytes → Except Error Case
  | [] => .ok seen
  | byte :: rest =>
    let c := Char.ofNat byte.toNat
    if byte < 33 ∨ 126 < byte then .error (.invalidCharacter c)
    else if c.isLower then
      if seen = .upper then .error .mixedCase else readableCase .lower rest
    else if c.isUpper then
      if seen = .lower then .error .mixedCase else readableCase .upper rest
    else readableCase seen rest

/-- Checks a readable part and tells its case. -/
def checkReadable (readable : List Char) : Except Error Case :=
  let bytes := Bytes.ofText (String.ofList readable)
  if bytes.isEmpty ∨ maxReadableLength < bytes.length then .error .invalidLength
  else readableCase .none bytes

/-- A readable part in lower case. -/
def lowerReadable (readable : List Char) : List Char :=
  readable.map Char.toLower

/-- Reads the characters behind the separator, which must keep to the case seen so far. -/
def readGroups (seen : Case) : List Char → Except Error (List Nat)
  | [] => .ok []
  | c :: rest =>
    if 128 ≤ c.toNat then .error (.invalidCharacter c)
    else if c.isLower ∧ seen = .upper ∨ c.isUpper ∧ seen = .lower then .error .mixedCase
    else
      let next := if c.isLower then .lower else if c.isUpper then .upper else seen
      match groupValue? c with
      | some group => (group :: ·) <$> readGroups next rest
      | none => .error (.invalidCharacter c)

/-- The text before and behind the last separator. -/
def splitSeparator? (chars : List Char) : Option (List Char × List Char) :=
  let behind := chars.reverse.takeWhile (· ≠ '1')
  match chars.reverse.drop behind.length with
  | [] => none
  | _ :: before => some (before.reverse, behind.reverse)

/-- The readable part, in lower case, and the bytes of a text. -/
def decode (chars : List Char) : Except Error (List Char × List Nat) := do
  match splitSeparator? chars with
  | none => throw .missingSeparator
  | some (readable, data) =>
    let seen ← checkReadable readable
    let lower := lowerReadable readable
    let groups ← readGroups seen data
    if groups.length < checksumLength then throw .invalidLength
    if !checksumHolds lower groups then throw .invalidChecksum
    return (lower, groups.take (groups.length - checksumLength))

/-- The text of a readable part and five-bit groups. -/
def encode (readable : List Char) (groups : List Nat) : Except Error (List Char) := do
  let _ ← checkReadable readable
  let lower := lowerReadable readable
  return lower ++ '1' :: (groups ++ checksum lower groups).map groupChar

end Bech32
end Valset
