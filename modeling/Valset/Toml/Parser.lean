import Valset.Toml

/-!
# TOML statements from text

The grammar of TOML 1.0: a document is a list of pairs and headers, one a line. Arrays and tables
within a line nest less than 80 deep, and no key has 80 parts.
-/

namespace Valset
namespace Toml

/-! ## Blanks, comments and the ends of lines -/

/-- Whether a character is blank within a line. -/
def isBlank (c : Char) : Bool :=
  c == ' ' || c == '\t'

/-- The rest of a text behind its blanks. -/
def skipBlanks (chars : List Char) : List Char :=
  chars.dropWhile isBlank

/-- Whether a character may stand in a comment, and in strings but for what marks their ends. -/
def isTextChar (c : Char) : Bool :=
  c == '\t' || (0x20 ≤ c.toNat && c.toNat != 0x7f)

/-- The rest of a text behind a line break. -/
def takeBreak : List Char → Option (List Char)
  | '\n' :: rest => some rest
  | '\r' :: '\n' :: rest => some rest
  | _ => none

/-- The rest of a text behind a comment, if there is one. -/
def skipComment : List Char → List Char
  | '#' :: rest => rest.dropWhile isTextChar
  | rest => rest

/-- The rest of a text behind the end of a line, where only blanks and a comment may stand. -/
def takeLineEnd (chars : List Char) : Option (List Char) :=
  match skipComment (skipBlanks chars) with
  | [] => some []
  | rest => takeBreak rest

/-- The rest of a text behind blanks, comments and line breaks. -/
def skipLines : (fuel : Nat) → List Char → List Char
  | 0, chars => chars
  | fuel + 1, chars =>
    let rest := skipBlanks chars
    match takeBreak (skipComment rest) with
    | some next => skipLines fuel next
    | none => rest

/-! ## Strings -/

/-- The value of a digit of base sixteen. -/
def hexValue? (c : Char) : Option Nat :=
  if '0' ≤ c ∧ c ≤ '9' then some (c.toNat - 48)
  else if 'a' ≤ c ∧ c ≤ 'f' then some (c.toNat - 87)
  else if 'A' ≤ c ∧ c ≤ 'F' then some (c.toNat - 55)
  else none

/-- The number of a given count of digits of base sixteen and the rest of the text. -/
def takeHex (value : Nat) : (count : Nat) → List Char → Option (Nat × List Char)
  | 0, rest => some (value, rest)
  | _ + 1, [] => none
  | count + 1, c :: rest => do takeHex (value * 16 + (← hexValue? c)) count rest

/-- The character with a number, surrogates being none. -/
def charOf? (value : Nat) : Option Char :=
  if value.isValidChar then some (Char.ofNat value) else none

/-- The character of an escape behind the backslash. -/
def takeEscape : List Char → Option (Char × List Char)
  | 'b' :: rest => some ('\x08', rest)
  | 't' :: rest => some ('\t', rest)
  | 'n' :: rest => some ('\n', rest)
  | 'f' :: rest => some ('\x0c', rest)
  | 'r' :: rest => some ('\r', rest)
  | '"' :: rest => some ('"', rest)
  | '\\' :: rest => some ('\\', rest)
  | 'u' :: rest => do
    let (value, rest) ← takeHex 0 4 rest
    return (← charOf? value, rest)
  | 'U' :: rest => do
    let (value, rest) ← takeHex 0 8 rest
    return (← charOf? value, rest)
  | _ => none

/-- The characters of a string in double quotes up to the closing one, and the rest of the text. -/
def takeBasic : (fuel : Nat) → List Char → Option (List Char × List Char)
  | 0, _ => none
  | _ + 1, [] => none
  | _ + 1, '"' :: rest => some ([], rest)
  | fuel + 1, '\\' :: rest => do
    let (c, rest) ← takeEscape rest
    let (chars, rest) ← takeBasic fuel rest
    return (c :: chars, rest)
  | fuel + 1, c :: rest =>
    if isTextChar c then do
      let (chars, rest) ← takeBasic fuel rest
      return (c :: chars, rest)
    else none

/-- The characters of a string in single quotes up to the closing one, and the rest of the text. -/
def takeLiteral : List Char → Option (List Char × List Char)
  | [] => none
  | '\'' :: rest => some ([], rest)
  | c :: rest =>
    if isTextChar c then do
      let (chars, rest) ← takeLiteral rest
      return (c :: chars, rest)
    else none

/-- The rest of a text behind a backslash that ends a line, with all blanks and line breaks that
follow. -/
def takeContinuation (chars : List Char) : Option (List Char) := do
  let rest ← takeBreak (skipBlanks chars)
  return (skipAll rest.length rest)
where
  /-- Drops blanks and line breaks. -/
  skipAll : (fuel : Nat) → List Char → List Char
    | 0, chars => chars
    | fuel + 1, chars =>
      match takeBreak (skipBlanks chars) with
      | some next => skipAll fuel next
      | none => skipBlanks chars

/-- Quotes of a string over several lines: up to two stand for themselves, and three close it. -/
inductive QuoteRun
  | inside (count : Nat) (rest : List Char)
  | closing (count : Nat) (rest : List Char)

/-- The run of quotes at the front of a text. -/
def takeQuotes (mark : Char) (chars : List Char) : QuoteRun :=
  let count := (chars.takeWhile (· == mark)).length
  if count < 3 then .inside count (chars.drop count)
  else .closing (min count 5 - 3) (chars.drop (min count 5))

/-- The characters of a string over several lines up to the closing quotes, and the rest of the
text. Only double quotes allow escapes. -/
def takeMulti (mark : Char) : (fuel : Nat) → List Char → Option (List Char × List Char)
  | 0, _ => none
  | _ + 1, [] => none
  | fuel + 1, c :: rest =>
    if c = mark then
      match takeQuotes mark (c :: rest) with
      | .closing count rest => some (List.replicate count mark, rest)
      | .inside count rest => do
        let (chars, rest) ← takeMulti mark fuel rest
        return (List.replicate count mark ++ chars, rest)
    else if c = '\\' ∧ mark = '"' then
      match takeContinuation rest with
      | some rest => takeMulti mark fuel rest
      | none => do
        let (escaped, rest) ← takeEscape rest
        let (chars, rest) ← takeMulti mark fuel rest
        return (escaped :: chars, rest)
    else
      match takeBreak (c :: rest) with
      | some rest => do
        let (chars, rest) ← takeMulti mark fuel rest
        return ('\n' :: chars, rest)
      | none =>
        if isTextChar c then do
          let (chars, rest) ← takeMulti mark fuel rest
          return (c :: chars, rest)
        else none

/-- The string over several lines behind its opening quotes; a line break right behind them does
not count. -/
def takeMultiBody (mark : Char) (chars : List Char) : Option (List Char × List Char) :=
  let rest := (takeBreak chars).getD chars
  takeMulti mark (rest.length + 1) rest

/-- The string at the front of a text, if a quote stands there, and the rest. -/
def takeString : List Char → Option (String × List Char)
  | '"' :: '"' :: '"' :: rest => do
    let (chars, rest) ← takeMultiBody '"' rest
    return (String.ofList chars, rest)
  | '\'' :: '\'' :: '\'' :: rest => do
    let (chars, rest) ← takeMultiBody '\'' rest
    return (String.ofList chars, rest)
  | '"' :: rest => do
    let (chars, rest) ← takeBasic (rest.length + 1) rest
    return (String.ofList chars, rest)
  | '\'' :: rest => do
    let (chars, rest) ← takeLiteral rest
    return (String.ofList chars, rest)
  | _ => none

/-! ## Keys -/

/-- Whether a character may stand in a key without quotes. -/
def isKeyChar (c : Char) : Bool :=
  ('A' ≤ c && c ≤ 'Z') || ('a' ≤ c && c ≤ 'z') || ('0' ≤ c && c ≤ '9') || c == '_' || c == '-'

/-- One part of a key and the rest of the text. -/
def takeKeyPart (chars : List Char) : Option (String × List Char) :=
  match chars with
  | '"' :: rest => do
    let (key, rest) ← takeBasic (rest.length + 1) rest
    return (String.ofList key, rest)
  | '\'' :: rest => do
    let (key, rest) ← takeLiteral rest
    return (String.ofList key, rest)
  | _ =>
    match chars.takeWhile isKeyChar with
    | [] => none
    | key => some (String.ofList key, chars.dropWhile isKeyChar)

/-- The parts of a key with dots between them and blanks around them, and the rest of the text. -/
def takeKeyParts : (fuel : Nat) → List Char → Option (List String × List Char)
  | 0, _ => none
  | fuel + 1, chars => do
    let (part, rest) ← takeKeyPart (skipBlanks chars)
    match skipBlanks rest with
    | '.' :: rest =>
      let (parts, rest) ← takeKeyParts fuel rest
      return (part :: parts, rest)
    | rest => return ([part], rest)

/-- One more than the number of parts that a key may have. -/
def depthLimit : Nat := 80

/-- A key: the parts in front of the last one, the last one, and the rest of the text. -/
def takeKey (chars : List Char) : Option (List String × String × List Char) := do
  let (parts, rest) ← takeKeyParts (chars.length + 1) chars
  if parts.length < depthLimit then return (parts.dropLast, ← parts.getLast?, rest) else none

/-! ## Numbers, dates and times -/

/-- A number of a given count of decimal digits between bounds, and the rest of the text. -/
def takeField (count low high : Nat) (chars : List Char) : Option (Nat × List Char) :=
  let digits := chars.take count
  let value := digits.foldl (fun n c => n * 10 + (c.toNat - 48)) 0
  if digits.length = count ∧ digits.all Char.isDigit ∧ low ≤ value ∧ value ≤ high then
    some (value, chars.drop count)
  else none

/-- The rest of a text behind a character. -/
def takeMark (mark : Char) : List Char → Option (List Char)
  | [] => none
  | c :: rest => if c = mark then some rest else none

/-- A number with zeros in front up to a given count of digits. -/
def padded (count value : Nat) : String :=
  let digits := toString value
  String.ofList (List.replicate (count - digits.length) '0') ++ digits

/-- The number of days of a month. -/
def daysOf (year month : Nat) : Nat :=
  if month = 2 then
    if year % 4 = 0 ∧ (year % 100 ≠ 0 ∨ year % 400 = 0) then 29 else 28
  else if month = 4 ∨ month = 6 ∨ month = 9 ∨ month = 11 then 30
  else 31

/-- A date, written out, and the rest of the text. -/
def takeDate (chars : List Char) : Option (String × List Char) := do
  let (year, rest) ← takeField 4 0 9999 chars
  let (month, rest) ← takeField 2 1 12 (← takeMark '-' rest)
  let (day, rest) ← takeField 2 1 (daysOf year month) (← takeMark '-' rest)
  return (s!"{padded 4 year}-{padded 2 month}-{padded 2 day}", rest)

/-- The fraction of a second, cut to nine digits and written out without zeros at its end. -/
def takeSecondFraction : List Char → Option (String × List Char)
  | '.' :: rest =>
    match rest.takeWhile Char.isDigit with
    | [] => none
    | digits =>
      let shown := ((digits.take 9).reverse.dropWhile (· == '0')).reverse
      let text := if shown.isEmpty then "" else "." ++ String.ofList shown
      some (text, rest.dropWhile Char.isDigit)
  | rest => some ("", rest)

/-- A time of the day, written out, and the rest of the text. -/
def takeTime (chars : List Char) : Option (String × List Char) := do
  let (hour, rest) ← takeField 2 0 23 chars
  let (minute, rest) ← takeField 2 0 59 (← takeMark ':' rest)
  let (second, rest) ← takeField 2 0 60 (← takeMark ':' rest)
  let (fraction, rest) ← takeSecondFraction rest
  return (s!"{padded 2 hour}:{padded 2 minute}:{padded 2 second}{fraction}", rest)

/-- The distance of a time from the one at Greenwich, written out, if it is there, and the rest of
the text. -/
def takeOffset : List Char → Option (String × List Char)
  | 'Z' :: rest => some ("Z", rest)
  | 'z' :: rest => some ("Z", rest)
  | c :: rest =>
    if c = '+' ∨ c = '-' then do
      let (hour, rest) ← takeField 2 0 23 rest
      let (minute, rest) ← takeField 2 0 59 (← takeMark ':' rest)
      let sign := if c = '-' ∧ (hour ≠ 0 ∨ minute ≠ 0) then "-" else "+"
      return (s!"{sign}{padded 2 hour}:{padded 2 minute}", rest)
    else some ("", c :: rest)
  | [] => some ("", [])

/-- Whether a character may stand between a date and a time. -/
def isTimeMark (c : Char) : Bool :=
  c == 'T' || c == 't' || c == ' '

/-- A date, a time or both, and the rest of the text. -/
def takeDateTime (chars : List Char) : Option (String × List Char) :=
  match takeDate chars with
  | some (date, c :: rest) =>
    if isTimeMark c then
      match takeTime rest with
      | some (time, rest) => do
        let (offset, rest) ← takeOffset rest
        return (date ++ "T" ++ time ++ offset, rest)
      | none => some (date, c :: rest)
    else some (date, c :: rest)
  | some (date, []) => some (date, [])
  | none => takeTime chars

/-- Digits in groups with single underscores between them, and the rest of the text. -/
def takeGroups (isDigit : Char → Bool) : List Char → Option (List Char × List Char)
  | [] => none
  | [c] => if isDigit c then some ([c], []) else none
  | c :: '_' :: rest =>
    if isDigit c then (takeGroups isDigit rest).map fun (digits, rest) => (c :: digits, rest)
    else none
  | c :: d :: rest =>
    if !isDigit c then none
    else if isDigit d then
      (takeGroups isDigit (d :: rest)).map fun (digits, rest) => (c :: digits, rest)
    else some ([c], d :: rest)

/-- The value of digits of a base. -/
def digitsValue (base : Nat) (digits : List Char) : Nat :=
  digits.foldl (fun n c => n * base + ((hexValue? c).getD 0)) 0

/-- A whole number in the range of TOML. -/
def integer? (value : Int) : Option Toml :=
  if -maxInteger - 1 ≤ value ∧ value ≤ maxInteger then some (.integer value) else none

/-- A whole number in a base other than ten, behind its marker. -/
def takeBased (base : Nat) (isDigit : Char → Bool) (chars : List Char) :
    Option (Toml × List Char) := do
  let (digits, rest) ← takeGroups isDigit chars
  return (← integer? (digitsValue base digits), rest)

/-- The digits of a whole number in base ten, without zeros in front, and the rest of the text. -/
def takeDecimal : List Char → Option (List Char × List Char)
  | '0' :: rest => some (['0'], rest)
  | chars => takeGroups Char.isDigit chars

/-- The digits behind a point, if there is one, and the rest of the text. -/
def takeFraction : List Char → Option (Option (List Char) × List Char)
  | '.' :: rest => do
    let (digits, rest) ← takeGroups Char.isDigit rest
    return (some digits, rest)
  | rest => some (none, rest)

/-- The sign in front of a number and the rest of the text. -/
def takeSign : List Char → Bool × List Char
  | '-' :: rest => (true, rest)
  | '+' :: rest => (false, rest)
  | rest => (false, rest)

/-- The exponent behind a number, if there is one, and the rest of the text. -/
def takeExponent (chars : List Char) : Option (Option Int × List Char) :=
  match chars with
  | c :: rest =>
    if c = 'e' ∨ c = 'E' then do
      let (negative, rest) := takeSign rest
      let (digits, rest) ← takeGroups Char.isDigit rest
      let size : Int := digitsValue 10 digits
      return (some (if negative then -size else size), rest)
    else some (none, chars)
  | [] => some (none, [])

/-- The double of a decimal number; one that is too large is refused unless it is negative. -/
def double? (negative : Bool) (whole fraction : List Char) (exponent : Int) : Option Toml :=
  let significand := digitsValue 10 (whole ++ fraction)
  let value := Double.ofDecimal negative significand (exponent - fraction.length)
  if value = Double.infinity then none else some (.double value)

/-- A number in base ten behind its sign. -/
def takeUnsigned (negative : Bool) (chars : List Char) : Option (Toml × List Char) := do
  let (whole, rest) ← takeDecimal chars
  let (fraction, rest) ← takeFraction rest
  let (exponent, rest) ← takeExponent rest
  match fraction, exponent with
  | none, none =>
    let value : Int := digitsValue 10 whole
    return (← integer? (if negative then -value else value), rest)
  | _, _ => return (← double? negative whole (fraction.getD []) (exponent.getD 0), rest)

/-- A number with a sign or without, or the word for an infinite or undefined one. -/
def takeSigned (chars : List Char) : Option (Toml × List Char) :=
  let (negative, rest) := takeSign chars
  match rest with
  | 'i' :: 'n' :: 'f' :: rest =>
    some (.double (if negative then Double.infinity.negate else Double.infinity), rest)
  | 'n' :: 'a' :: 'n' :: rest =>
    some (.double (if negative then Double.undefinedNumber.negate else .undefinedNumber), rest)
  | rest => takeUnsigned negative rest

/-- A number, a date or a time. -/
def takeNumber (chars : List Char) : Option (Toml × List Char) :=
  match takeDateTime chars with
  | some (text, rest) => some (.dateTime text, rest)
  | none =>
    match chars with
    | '0' :: 'x' :: rest => takeBased 16 (fun c => (hexValue? c).isSome) rest
    | '0' :: 'o' :: rest => takeBased 8 (fun c => '0' ≤ c && c ≤ '7') rest
    | '0' :: 'b' :: rest => takeBased 2 (fun c => c == '0' || c == '1') rest
    | _ => takeSigned chars

/-! ## Values -/

/-- A field within a line: the parts of its key in front of the last one, the last one, and its
value. -/
structure Pair where
  path : List String
  key : String
  value : Toml

/-- Puts the fields of an inline table together; given later, for it needs the rules of tables. -/
abbrev Assembler := List Pair → Option Toml

mutual

/-- The value at the front of a text, inside at most `depth` more arrays and tables, and the
rest. -/
def takeValue (assemble : Assembler) : (fuel depth : Nat) → List Char → Option (Toml × List Char)
  | 0, _, _ => none
  | fuel + 1, depth, chars =>
    match chars with
    | '"' :: _ => do
      let (text, rest) ← takeString chars
      return (.string text, rest)
    | '\'' :: _ => do
      let (text, rest) ← takeString chars
      return (.string text, rest)
    | 't' :: 'r' :: 'u' :: 'e' :: rest => some (.bool true, rest)
    | 'f' :: 'a' :: 'l' :: 's' :: 'e' :: rest => some (.bool false, rest)
    | '[' :: rest =>
      match depth with
      | 0 => none
      | depth + 1 => do
        let (items, rest) ← takeItems assemble fuel depth rest
        return (.array items, rest)
    | '\x7b' :: rest =>
      match depth with
      | 0 => none
      | depth + 1 =>
        match skipBlanks rest with
        | '\x7d' :: rest => do return (← assemble [], rest)
        | rest => do
          let (pairs, rest) ← takePairs assemble fuel depth rest
          return (← assemble pairs, rest)
    | chars => takeNumber chars

/-- The items up to the closing bracket; a comma may stand behind the last one. -/
def takeItems (assemble : Assembler) :
    (fuel depth : Nat) → List Char → Option (List Toml × List Char)
  | 0, _, _ => none
  | fuel + 1, depth, chars =>
    match skipLines (chars.length + 1) chars with
    | ']' :: rest => some ([], rest)
    | rest => do
      let (item, rest) ← takeValue assemble fuel depth rest
      match skipLines (rest.length + 1) rest with
      | ',' :: rest =>
        let (items, rest) ← takeItems assemble fuel depth rest
        return (item :: items, rest)
      | ']' :: rest => return ([item], rest)
      | _ => none

/-- The fields up to the closing brace; there is at least one. -/
def takePairs (assemble : Assembler) :
    (fuel depth : Nat) → List Char → Option (List Pair × List Char)
  | 0, _, _ => none
  | fuel + 1, depth, chars => do
    let (path, key, rest) ← takeKey chars
    let rest ← takeMark '=' rest
    let (value, rest) ← takeValue assemble fuel depth (skipBlanks rest)
    match skipBlanks rest with
    | ',' :: rest =>
      let (pairs, rest) ← takePairs assemble fuel depth rest
      return (⟨path, key, value⟩ :: pairs, rest)
    | '\x7d' :: rest => return ([⟨path, key, value⟩], rest)
    | _ => none

end

/-! ## Statements -/

/-- A line of a document. -/
inductive Statement
  | pair (pair : Pair)
  | table (path : List String) (key : String)
  | item (path : List String) (key : String)

/-- A header behind its opening brackets. -/
def takeHeader (brackets : Nat) (chars : List Char) :
    Option (List String × String × List Char) := do
  let (path, key, rest) ← takeKey chars
  let rest ← (List.replicate brackets ']').foldlM (fun rest mark => takeMark mark rest) rest
  return (path, key, ← takeLineEnd rest)

/-- A pair, with the end of its line. -/
def takePair (assemble : Assembler) (chars : List Char) : Option (Pair × List Char) := do
  let (path, key, rest) ← takeKey chars
  let rest := skipBlanks (← takeMark '=' rest)
  let (value, rest) ← takeValue assemble (2 * rest.length + 2) (depthLimit - 1) rest
  return (⟨path, key, value⟩, ← takeLineEnd rest)

/-- The statement at the front of a text, which is not empty; none if the line holds none. -/
def takeStatement (assemble : Assembler) (chars : List Char) :
    Option (Option Statement × List Char) :=
  match chars with
  | '[' :: '[' :: rest => do
    let (path, key, rest) ← takeHeader 2 rest
    return (some (.item path key), rest)
  | '[' :: rest => do
    let (path, key, rest) ← takeHeader 1 rest
    return (some (.table path key), rest)
  | c :: _ =>
    if c = '#' ∨ c = '\n' ∨ c = '\r' then do return (none, ← takeLineEnd chars)
    else do
      let (pair, rest) ← takePair assemble chars
      return (some (.pair pair), rest)
  | [] => none

/-- The statements of a text. -/
def takeStatements (assemble : Assembler) : (fuel : Nat) → List Char → Option (List Statement)
  | 0, _ => none
  | fuel + 1, chars =>
    match skipBlanks chars with
    | [] => some []
    | rest => do
      let (statement, rest) ← takeStatement assemble rest
      let statements ← takeStatements assemble fuel rest
      return statement.toList ++ statements

end Toml
end Valset
