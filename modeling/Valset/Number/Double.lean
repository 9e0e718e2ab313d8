/-!
# Double-precision numbers in texts

A double is held by its bits. Its text has the fewest digits that lie closer to it than to any other
double; of those the nearest.
-/

namespace Valset

/-- A double-precision number, given by the bits of its binary form. -/
structure Double where
  bits : UInt64
deriving DecidableEq

namespace Double

/-- The double with the value of a machine number. -/
def ofFloat (value : Float) : Double :=
  ⟨value.toBits⟩

/-- The machine number with the value of a double. -/
def toFloat (double : Double) : Float :=
  Float.ofBits double.bits

/-- Whether the sign bit is set. -/
def isNegative (double : Double) : Bool :=
  double.bits >>> 63 == 1

/-- The eleven bits of the exponent. -/
def exponentBits (double : Double) : Nat :=
  (double.bits >>> 52).toNat % 2048

/-- The fifty-two bits of the fraction. -/
def fractionBits (double : Double) : Nat :=
  double.bits.toNat % Nat.pow 2 52

/-- Whether the number is neither infinite nor undefined. -/
def isFinite (double : Double) : Bool :=
  double.exponentBits != 2047

/-- The whole number `m` of the absolute value `m * 2 ^ q`. -/
def mantissa (double : Double) : Nat :=
  if double.exponentBits = 0 then double.fractionBits else double.fractionBits + Nat.pow 2 52

/-- The exponent `q` of the absolute value `m * 2 ^ q`. -/
def exponent (double : Double) : Int :=
  if double.exponentBits = 0 then -1074 else (double.exponentBits : Int) - 1075

/-- Numerator and denominator of `m * 2 ^ q`. -/
def ratio (m : Nat) (q : Int) : Nat × Nat :=
  if q < 0 then (m, Nat.pow 2 q.natAbs) else (m * Nat.pow 2 q.natAbs, 1)

/-- Whether `d * 10 ^ k` rounds to the double with mantissa `m` and exponent `q`: it lies between
the middles to the two neighbours, which count when the mantissa is even. -/
def roundsTo (m : Nat) (q : Int) (d : Nat) (k : Int) : Bool :=
  let below := if m = Nat.pow 2 52 ∧ -1074 < q then 4 * m - 1 else 4 * m - 2
  let above := 4 * m + 2
  let (n, den) :=
    if k < 0 then (d, Nat.pow 10 k.natAbs) else (d * Nat.pow 10 k.natAbs, 1)
  let side (edge : Nat) : Nat × Nat :=
    let (num, base) := ratio edge (q - 2)
    (num * den, n * base)
  let (low, value) := side below
  let (high, value') := side above
  if m % 2 = 0 then low ≤ value && value' ≤ high else low < value && value' < high

/-- The number of decimal digits of a whole number. -/
def digitCount (n : Nat) : Nat :=
  (Nat.toDigits 10 n).length

/-- The exponent `k` for which `num / den` has `count` digits before the point of `· / 10 ^ k`. -/
def scale (num den count : Nat) : Int :=
  let guess : Int := (digitCount num : Int) - digitCount den - count
  let reaches (k : Int) : Bool :=
    if k < 0 then Nat.pow 10 (count - 1) * den ≤ num * Nat.pow 10 k.natAbs
    else Nat.pow 10 (count - 1) * den * Nat.pow 10 k.natAbs ≤ num
  if reaches (guess + 1) then guess + 1 else guess

/-- The nearer of the two `count`-digit neighbours that round to the double, if any does. -/
def nearest? (m : Nat) (q : Int) (count : Nat) : Option (Nat × Int) :=
  let (num, den) := ratio m q
  let k := scale num den count
  let (n, d) := if k < 0 then (num * Nat.pow 10 k.natAbs, den) else (num, den * Nat.pow 10 k.natAbs)
  let down := n / d
  let up := down + 1
  let downHits := roundsTo m q down k
  let upHits := roundsTo m q up k
  if downHits ∧ (¬ upHits ∨ 2 * (n % d) ≤ d) then some (down, k)
  else if upHits then some (up, k)
  else none

/-- The digits of a positive double and the exponent of the last one, tried with ever more
digits. -/
def shortest (m : Nat) (q : Int) : (fuel count : Nat) → Nat × Int
  | 0, _ => (m, 0)
  | fuel + 1, count =>
    match nearest? m q count with
    | some found => found
    | none => shortest m q fuel (count + 1)

/-- Drops trailing zeros of the digits, raising the exponent. -/
def dropZeros : (fuel digits : Nat) → Int → Nat × Int
  | 0, digits, k => (digits, k)
  | fuel + 1, digits, k =>
    if digits % 10 = 0 ∧ digits ≠ 0 then dropZeros fuel (digits / 10) (k + 1) else (digits, k)

/-- How the digits are laid out: the point stands at `point` places behind the first digit's front.
Positional between `1e-5` and `1e16`, with at least one digit on both sides of the point. -/
def layout (digits : String) (exponent : Int) : String :=
  let length : Int := digits.length
  let point := length + exponent
  if 0 ≤ exponent ∧ point ≤ 16 then
    digits ++ String.ofList (List.replicate exponent.natAbs '0') ++ ".0"
  else if 0 < point ∧ point ≤ 16 then
    let chars := digits.toList
    String.ofList (chars.take point.natAbs ++ '.' :: chars.drop point.natAbs)
  else if -5 < point ∧ point ≤ 0 then
    "0." ++ String.ofList (List.replicate point.natAbs '0') ++ digits
  else
    let tail := digits.toList.drop 1
    let fraction := if tail.isEmpty then [] else '.' :: tail
    String.ofList (digits.toList.take 1 ++ fraction) ++ s!"e{point - 1}"

/-- The fewest digits of a positive double that read back, and the exponent of the last one. -/
def digits (double : Double) : Nat × Int :=
  let (digits, k) := shortest double.mantissa double.exponent 17 1
  dropZeros 20 digits k

/-- What stands in front of the digits of a double. -/
def sign (double : Double) : String :=
  if double.isNegative then "-" else ""

/-- The text of a finite double. -/
def text (double : Double) : String :=
  if double.mantissa = 0 then double.sign ++ "0.0"
  else
    let (digits, k) := double.digits
    double.sign ++ layout (toString digits) k

/-- The layout of digits without an exponent, at least one of them on both sides of the point. -/
def plainLayout (digits : String) (exponent : Int) : String :=
  let length : Int := digits.length
  let point := length + exponent
  if 0 ≤ exponent then digits ++ String.ofList (List.replicate exponent.natAbs '0') ++ ".0"
  else if 0 < point then
    let chars := digits.toList
    String.ofList (chars.take point.natAbs ++ '.' :: chars.drop point.natAbs)
  else "0." ++ String.ofList (List.replicate point.natAbs '0') ++ digits

/-- Whether a double is no number. -/
def isNaN (double : Double) : Bool :=
  !double.isFinite && double.fractionBits != 0

/-- The text of a double without an exponent. -/
def plainText (double : Double) : String :=
  if double.isNaN then double.sign ++ "nan"
  else if !double.isFinite then double.sign ++ "inf"
  else if double.mantissa = 0 then double.sign ++ "0.0"
  else
    let (digits, k) := double.digits
    double.sign ++ plainLayout (toString digits) k

/-- The double nearest to a decimal number with a sign; infinity if the number is beyond all
doubles. -/
def ofDecimal (negative : Bool) (significand : Nat) (exponent : Int) : Double :=
  let point : Int := digitCount significand + exponent
  let size : Float :=
    if significand = 0 ∨ point < -400 then 0
    else if 400 < point then 1 / 0
    else Float.ofScientific significand (exponent < 0) exponent.natAbs
  ofFloat (if negative then -size else size)

/-- Positive infinity. -/
def infinity : Double :=
  ⟨0x7ff0000000000000⟩

/-- The value that is no number, without a sign. -/
def undefinedNumber : Double :=
  ⟨0x7ff8000000000000⟩

/-- The same double with the opposite sign. -/
def negate (double : Double) : Double :=
  ⟨double.bits ^^^ 0x8000000000000000⟩

end Double
end Valset
