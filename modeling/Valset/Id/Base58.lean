import Valset.Bytes

/-!
# Base58 and cb58 text

Base58 writes a byte string as a number in base 58, with one `1` for each leading zero byte. A cb58
text is the base58 form of a payload followed by the last four bytes of its hash.
-/

namespace Valset
namespace Base58

/-- Why a text is not in base58. -/
inductive Error
  | nonAscii (position : Nat)
  | invalidCharacter (c : Char) (position : Nat)
deriving DecidableEq, Repr

/-- The digits in ascending order; `0`, `I`, `O` and `l` are left out. -/
def alphabet : List Char :=
  "123456789ABCDEFGHJKLMNPQRSTUVWXYZabcdefghijkmnopqrstuvwxyz".toList

/-- The digit of a number below 58. -/
def digit (value : Nat) : Char :=
  alphabet.getD value '1'

/-- The value of a digit. -/
def digitValue? (c : Char) : Option Nat :=
  alphabet.idxOf? c

/-- The digits of a number in a base of at least two, least significant first; none for zero. -/
def digitsOf (base : Nat) (value : Nat) : List Nat :=
  if _ : value = 0 ∨ base < 2 then []
  else value % base :: digitsOf base (value / base)
termination_by value
decreasing_by
  have : 0 < value := by omega
  exact Nat.div_lt_self this (by omega)

/-- The number with the given digits, least significant first. -/
def ofDigits (base : Nat) : List Nat → Nat
  | [] => 0
  | d :: rest => d + base * ofDigits base rest

/-- The text of a byte string. -/
def encodeChars (bytes : Bytes) : List Char :=
  let zeros := bytes.takeWhile (· == 0)
  zeros.map (fun _ => digit 0) ++
    ((digitsOf 58 (Bytes.toNat bytes)).reverse.map digit)

/-- The values of the digits of a text, whose first character stands at byte `position`. -/
def values (position : Nat) : List Char → Except Error (List Nat)
  | [] => .ok []
  | c :: rest =>
    if 128 ≤ c.toNat then .error (.nonAscii position)
    else
      match digitValue? c with
      | some value => (value :: ·) <$> values (position + 1) rest
      | none => .error (.invalidCharacter c position)

/-- The byte string of a text. -/
def decodeChars (chars : List Char) : Except Error Bytes := do
  let digits ← values 0 chars
  let zeros := digits.takeWhile (· == 0)
  return zeros.map (fun _ => (0 : UInt8)) ++
    (digitsOf 256 (ofDigits 58 digits.reverse)).reverse.map UInt8.ofNat

end Base58
end Valset
