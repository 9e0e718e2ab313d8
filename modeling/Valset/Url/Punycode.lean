import Valset.Text.Utf8

/-!
# Short forms of host labels

A label with characters beyond ASCII has a short form: the mark `xn--`, its ASCII characters, a
hyphen if there are any, and one number for each other character, which says what it is and where
it stands. The digits of a number begin with the lowest, and how many it has follows from their
values and from the numbers before it.
-/

namespace Valset
namespace Punycode

/-- The value of a digit: letters in either case, then decimal digits. -/
def digit? (c : Char) : Option Nat :=
  if c.isAlpha then some (c.toLower.toNat - 'a'.toNat)
  else if c.isDigit then some (c.toNat - '0'.toNat + 26)
  else none

/-- The value below which the digit at a place is the last of its number. -/
def threshold (bias place : Nat) : Nat :=
  min 26 (max 1 (place - bias))

/-- The bias behind a number of the given size. -/
def biasBehind (size : Nat) : Nat :=
  if 455 < size then biasBehind (size / 35) + 36 else 36 * size / (size + 38)
termination_by size
decreasing_by exact Nat.div_lt_self (by omega) (by omega)

/-- A label of which some digits are read. The index counts on from the place behind the character
last put in, where the current number starts. -/
structure Decoding where
  text : List Char
  point : Nat := 128
  start : Nat := 0
  index : Nat := 0
  weight : Nat := 1
  place : Nat := 36
  bias : Nat := 72

namespace Decoding

/-- Puts in the character that a whole number stands for. -/
def insert (label : Decoding) : Option Decoding :=
  let size := label.text.length + 1
  let number := label.index - label.start
  let scaled := if label.start = 0 then number / 700 else number / 2
  let point := label.point + label.index / size
  let spot := label.index % size
  if point.isValidChar then
    some {
      text := label.text.insertIdx spot (Char.ofNat point)
      point
      start := spot + 1
      index := spot + 1
      bias := biasBehind (scaled + scaled / size)
    }
  else none

/-- Reads one digit. -/
def step (label : Decoding) (c : Char) : Option Decoding := do
  let digit ← digit? c
  let limit := threshold label.bias label.place
  let label := { label with index := label.index + digit * label.weight }
  if UInt32.size ≤ label.index then
    none
  if digit < limit then
    label.insert
  else
    some { label with weight := label.weight * (36 - limit), place := label.place + 36 }

/-- Whether no number is half read. -/
def isWhole (label : Decoding) : Bool :=
  label.place == 36

end Decoding

/-- The ASCII characters in front of the last hyphen, and the digits behind it. -/
def split (chars : List Char) : List Char × List Char :=
  let digits := (chars.reverse.takeWhile (· != '-')).reverse
  let front := chars.take (chars.length - digits.length - 1)
  if front.isEmpty then ([], chars) else (front, digits)

/-- The label that stands behind a mark. -/
def decode? (chars : List Char) : Option (List Char) := do
  let (text, digits) := split chars
  let label ← digits.foldlM Decoding.step { text }
  if label.isWhole then some label.text else none

/-- Whether a label has no mark, or is the short form of a label that needs one. -/
def isSound (label : List Char) : Bool :=
  match label with
  | 'x' :: 'n' :: '-' :: '-' :: chars =>
    match decode? chars with
    | some text => text.any (0x80 ≤ ·.toNat) && text.all fun c => c.toNat < 0x80 || 0xa0 ≤ c.toNat
    | none => false
  | _ => true

end Punycode
end Valset
