import Valset.Json

/-!
# JSON values from text

The grammar of RFC 8259, read strictly: no character may follow the value but blanks, strings hold
no raw control character and no half of a surrogate pair, and containers nest less than 128 deep.
-/

namespace Valset
namespace Json

/-- Whether a character may stand between tokens. -/
def isSpace (c : Char) : Bool :=
  c == ' ' || c == '\n' || c == '\t' || c == '\r'

/-- The rest of a text behind its blanks. -/
def skipSpace (chars : List Char) : List Char :=
  chars.dropWhile isSpace

/-! ## Strings -/

/-- The number of four hexadecimal digits and the rest of the text. -/
def takeHex4 : List Char → Option (Nat × List Char)
  | a :: b :: c :: d :: rest => do
    let digit (x : Char) : Option Nat :=
      if '0' ≤ x ∧ x ≤ '9' then some (x.toNat - 48)
      else if 'a' ≤ x ∧ x ≤ 'f' then some (x.toNat - 87)
      else if 'A' ≤ x ∧ x ≤ 'F' then some (x.toNat - 55)
      else none
    return (((← digit a) * 16 + (← digit b)) * 16 + (← digit c)) * 16 + (← digit d) |> (·, rest)
  | _ => none

/-- The character of an escape behind `\u`; a first surrogate needs the second one behind it. -/
def takeUnicode (chars : List Char) : Option (Char × List Char) := do
  let (n, rest) ← takeHex4 chars
  if 0xdc00 ≤ n ∧ n ≤ 0xdfff then none
  else if 0xd800 ≤ n ∧ n ≤ 0xdbff then
    match rest with
    | '\\' :: 'u' :: rest =>
      let (low, rest) ← takeHex4 rest
      if 0xdc00 ≤ low ∧ low ≤ 0xdfff then
        return (Char.ofNat (0x10000 + (n - 0xd800) * 0x400 + (low - 0xdc00)), rest)
      else none
    | _ => none
  else return (Char.ofNat n, rest)

/-- The character of an escape behind the backslash. -/
def takeEscape : List Char → Option (Char × List Char)
  | '"' :: rest => some ('"', rest)
  | '\\' :: rest => some ('\\', rest)
  | '/' :: rest => some ('/', rest)
  | 'b' :: rest => some ('\x08', rest)
  | 'f' :: rest => some ('\x0c', rest)
  | 'n' :: rest => some ('\n', rest)
  | 'r' :: rest => some ('\r', rest)
  | 't' :: rest => some ('\t', rest)
  | 'u' :: rest => takeUnicode rest
  | _ => none

/-- The characters of a string up to its closing quote, and the rest of the text. -/
def takeString : (fuel : Nat) → List Char → Option (List Char × List Char)
  | 0, _ => none
  | _ + 1, [] => none
  | _ + 1, '"' :: rest => some ([], rest)
  | fuel + 1, '\\' :: rest => do
    let (c, rest) ← takeEscape rest
    let (chars, rest) ← takeString fuel rest
    return (c :: chars, rest)
  | fuel + 1, c :: rest =>
    if c.toNat < 0x20 then none
    else do
      let (chars, rest) ← takeString fuel rest
      return (c :: chars, rest)

/-! ## Numbers -/

/-- The largest whole number that is read as such. -/
def maxWhole : Nat := UInt64.size - 1

/-- The largest exponent that is read as such. -/
def maxExponent : Nat := Nat.pow 2 31 - 1

/-- Significand and decimal exponent of a number: digits are added as long as the significand stays
in 64 bits. -/
structure Scaled where
  significand : Nat
  exponent : Int

/-- Adds digits before the point; after the first one that does not fit the others only scale. -/
def addIntegerDigits (s : Scaled) : List Char → Scaled
  | [] => s
  | c :: rest =>
    let next := s.significand * 10 + (c.toNat - 48)
    if next ≤ maxWhole then addIntegerDigits ⟨next, s.exponent⟩ rest
    else ⟨s.significand, s.exponent + (c :: rest).length⟩

/-- Adds digits behind the point; after the first one that does not fit the others are dropped. -/
def addFractionDigits (s : Scaled) : List Char → Scaled
  | [] => s
  | c :: rest =>
    let next := s.significand * 10 + (c.toNat - 48)
    if next ≤ maxWhole then addFractionDigits ⟨next, s.exponent - 1⟩ rest else s

/-- Multiplies or divides by powers of ten, none above `10 ^ 308`; nothing when the result is too
large for a double. -/
def scaleFloat : (fuel : Nat) → Float → Int → Option Float
  | 0, _, _ => none
  | fuel + 1, value, exponent =>
    let size := exponent.natAbs
    if size ≤ 308 then
      let power := Float.ofScientific 1 false size
      if 0 ≤ exponent then
        let product := value * power
        if product.isInf then none else some product
      else some (value / power)
    else if value == 0 then some value
    else if 0 ≤ exponent then none
    else scaleFloat fuel (value / Float.ofScientific 1 false 308) (exponent + 308)

/-- The double with a sign, a significand and a decimal exponent. -/
def toDouble (negative : Bool) (s : Scaled) : Option Double := do
  let start := (UInt64.ofNat s.significand).toFloat
  let value ← scaleFloat (s.exponent.natAbs / 308 + 2) start s.exponent
  return Double.ofFloat (if negative then -value else value)

/-- A whole number, or a double when it does not fit into 64 bits. Minus zero is a double. -/
def wholeNumber (negative : Bool) (digits : List Char) : Option Number :=
  let s := addIntegerDigits ⟨0, 0⟩ digits
  if s.exponent ≠ 0 then .double <$> toDouble negative s
  else if ¬ negative then some (.whole s.significand)
  else if 0 < s.significand ∧ s.significand ≤ Nat.pow 2 63 then some (.whole (-s.significand))
  else some (.double (Double.ofFloat (-(UInt64.ofNat s.significand).toFloat)))

/-- The number with a sign, digits before and behind the point and perhaps an exponent. -/
def makeNumber
    (negative : Bool) (integer fraction : List Char) (exponent : Option (Bool × List Char)) :
    Option Number :=
  match fraction, exponent with
  | [], none => wholeNumber negative integer
  | _, _ =>
    let s := addFractionDigits (addIntegerDigits ⟨0, 0⟩ integer) fraction
    match exponent with
    | none => .double <$> toDouble negative s
    | some (negativeExponent, digits) =>
      let size := digits.foldl (fun n c => n * 10 + (c.toNat - 48)) 0
      if maxExponent < size then
        if s.significand ≠ 0 ∧ ¬ negativeExponent then none
        else some (.double (Double.ofFloat (if negative then -0.0 else 0.0)))
      else
        let shift : Int := if negativeExponent then -size else size
        .double <$> toDouble negative ⟨s.significand, s.exponent + shift⟩

/-- The digits at the front of a text, of which there must be one, and the rest. -/
def takeDigits (chars : List Char) : Option (List Char × List Char) :=
  match chars.takeWhile Char.isDigit with
  | [] => none
  | digits => some (digits, chars.dropWhile Char.isDigit)

/-- The digits before the point: a zero stands alone. -/
def takeInteger : List Char → Option (List Char × List Char)
  | '0' :: rest =>
    match rest with
    | c :: _ => if c.isDigit then none else some (['0'], rest)
    | [] => some (['0'], [])
  | chars => takeDigits chars

/-- The digits behind a point, if there is one. -/
def takeFraction : List Char → Option (List Char × List Char)
  | '.' :: rest => takeDigits rest
  | rest => some ([], rest)

/-- The sign and digits of an exponent, if there is one. -/
def takeExponent (chars : List Char) : Option (Option (Bool × List Char) × List Char) :=
  match chars with
  | c :: rest =>
    if c = 'e' ∨ c = 'E' then do
      let (negative, rest) :=
        match rest with
        | '-' :: rest => (true, rest)
        | '+' :: rest => (false, rest)
        | rest => (false, rest)
      let (digits, rest) ← takeDigits rest
      return (some (negative, digits), rest)
    else some (none, chars)
  | [] => some (none, [])

/-- The number at the front of a text and the rest. -/
def takeNumber (chars : List Char) : Option (Number × List Char) := do
  let (negative, rest) :=
    match chars with
    | '-' :: rest => (true, rest)
    | rest => (false, rest)
  let (integer, rest) ← takeInteger rest
  let (fraction, rest) ← takeFraction rest
  let (exponent, rest) ← takeExponent rest
  return (← makeNumber negative integer fraction exponent, rest)

/-! ## Values -/

/-- The rest of a text behind a word. -/
def takeWord : (word chars : List Char) → Option (List Char)
  | [], chars => some chars
  | w :: word, c :: chars => if w = c then takeWord word chars else none
  | _ :: _, [] => none

/-- The number of containers that may be open at once. -/
def maxDepth : Nat := 127

mutual

/-- The value at the front of a text, inside at most `depth` more containers, and the rest. -/
def takeValue : (fuel depth : Nat) → List Char → Option (Json × List Char)
  | 0, _, _ => none
  | fuel + 1, depth, chars =>
    match skipSpace chars with
    | 'n' :: rest => (.null, ·) <$> takeWord "ull".toList rest
    | 't' :: rest => (.bool true, ·) <$> takeWord "rue".toList rest
    | 'f' :: rest => (.bool false, ·) <$> takeWord "alse".toList rest
    | '"' :: rest => do
      let (text, rest) ← takeString (rest.length + 1) rest
      return (.string (String.ofList text), rest)
    | '[' :: rest =>
      match depth with
      | 0 => none
      | depth + 1 =>
        match skipSpace rest with
        | ']' :: rest => some (.array [], rest)
        | rest => do
          let (items, rest) ← takeItems fuel depth rest
          return (.array items, rest)
    | '\x7b' :: rest =>
      match depth with
      | 0 => none
      | depth + 1 =>
        match skipSpace rest with
        | '\x7d' :: rest => some (.object [], rest)
        | rest => do
          let (fields, rest) ← takeFields fuel depth rest
          return (.object fields, rest)
    | rest => do
      let (value, rest) ← takeNumber rest
      return (.number value, rest)

/-- The items up to the closing bracket; there is at least one. -/
def takeItems : (fuel depth : Nat) → List Char → Option (List Json × List Char)
  | 0, _, _ => none
  | fuel + 1, depth, chars => do
    let (item, rest) ← takeValue fuel depth chars
    match skipSpace rest with
    | ',' :: rest =>
      let (items, rest) ← takeItems fuel depth rest
      return (item :: items, rest)
    | ']' :: rest => return ([item], rest)
    | _ => none

/-- The fields up to the closing brace; there is at least one. -/
def takeFields : (fuel depth : Nat) → List Char → Option (List (String × Json) × List Char)
  | 0, _, _ => none
  | fuel + 1, depth, chars => do
    match skipSpace chars with
    | '"' :: rest =>
      let (key, rest) ← takeString (rest.length + 1) rest
      match skipSpace rest with
      | ':' :: rest =>
        let (value, rest) ← takeValue fuel depth rest
        let field := (String.ofList key, value)
        match skipSpace rest with
        | ',' :: rest =>
          let (fields, rest) ← takeFields fuel depth rest
          return (field :: fields, rest)
        | '\x7d' :: rest => return ([field], rest)
        | _ => none
      | _ => none
    | _ => none

end

/-- The value of a whole text. -/
def parse (text : String) : Option Json := do
  let chars := text.toList
  let (value, rest) ← takeValue (2 * chars.length + 2) maxDepth chars
  if (skipSpace rest).isEmpty then some value else none

end Json
end Valset
