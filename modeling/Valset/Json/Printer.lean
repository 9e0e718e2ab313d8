import Valset.Json
import Valset.Text.Quoted

/-!
# JSON text from values

The compact form has no white space; the indented form puts each item on a line of its own. The
compact form is written out in pieces: marks, numbers, and the parts of a string between the
characters that need an escape.
-/

namespace Valset
namespace Json

/-- A four-digit number as it stands in an escape. -/
def hexEscape (value : Nat) : List Char :=
  let digits := Nat.toDigits 16 value
  '\\' :: 'u' :: List.replicate (4 - digits.length) '0' ++ digits

/-- A character as it stands in a string. -/
def escapeChar (c : Char) : List Char :=
  if c = '"' then ['\\', '"']
  else if c = '\\' then ['\\', '\\']
  else if c = '\x08' then ['\\', 'b']
  else if c = '\x0c' then ['\\', 'f']
  else if c = '\n' then ['\\', 'n']
  else if c = '\r' then ['\\', 'r']
  else if c = '\t' then ['\\', 't']
  else if c.toNat < 0x20 then hexEscape c.toNat
  else [c]

/-- A text in quotes. -/
def quote (text : String) : List Char :=
  '"' :: text.toList.flatMap escapeChar ++ ['"']

/-- The digits of a number; a double that is not finite has none. -/
def Number.chars : Number → List Char
  | .whole value => (toString value).toList
  | .double value => if value.isFinite then value.text.toList else "null".toList

mutual

/-- The compact form of a value. -/
def compactChars : Json → List Char
  | .null => "null".toList
  | .bool true => "true".toList
  | .bool false => "false".toList
  | .number value => value.chars
  | .string value => quote value
  | .array items => '[' :: compactItems items ++ [']']
  | .object fields => '\x7b' :: compactFields fields ++ ['\x7d']

/-- The compact forms of items, with commas between them. -/
def compactItems : List Json → List Char
  | [] => []
  | [item] => compactChars item
  | item :: rest => compactChars item ++ ',' :: compactItems rest

/-- The compact forms of fields, with commas between them. -/
def compactFields : List (String × Json) → List Char
  | [] => []
  | [(key, value)] => quote key ++ ':' :: compactChars value
  | (key, value) :: rest => quote key ++ ':' :: compactChars value ++ ',' :: compactFields rest

end

/-- The compact form of a value. -/
def compact (value : Json) : String :=
  String.ofList (compactChars value)

/-- A line break and the indentation of a level, two spaces each. -/
def newLine (level : Nat) : List Char :=
  '\n' :: List.replicate (2 * level) ' '

mutual

/-- The indented form of a value that stands at a level. -/
def indentedChars (level : Nat) : Json → List Char
  | .array [] => ['[', ']']
  | .array items => '[' :: indentedItems (level + 1) items ++ newLine level ++ [']']
  | .object [] => ['\x7b', '\x7d']
  | .object fields => '\x7b' :: indentedFields (level + 1) fields ++ newLine level ++ ['\x7d']
  | .null => "null".toList
  | .bool true => "true".toList
  | .bool false => "false".toList
  | .number value => value.chars
  | .string value => quote value

/-- The indented forms of items, one a line. -/
def indentedItems (level : Nat) : List Json → List Char
  | [] => []
  | [item] => newLine level ++ indentedChars level item
  | item :: rest =>
    newLine level ++ indentedChars level item ++ ',' :: indentedItems level rest

/-- The indented forms of fields, one a line. -/
def indentedFields (level : Nat) : List (String × Json) → List Char
  | [] => []
  | [(key, value)] => newLine level ++ quote key ++ ':' :: ' ' :: indentedChars level value
  | (key, value) :: rest =>
    newLine level ++ quote key ++ ':' :: ' ' :: indentedChars level value ++
      ',' :: indentedFields level rest

end

/-- The indented form of a value. -/
def indented (value : Json) : String :=
  String.ofList (indentedChars 0 value)

mutual

/-- The form that names the kind of each value, as in `Array [Number(1), Null]`. -/
def kindedChars : Json → List Char
  | .null => "Null".toList
  | .bool true => "Bool(true)".toList
  | .bool false => "Bool(false)".toList
  | .number value => "Number(".toList ++ value.chars ++ [')']
  | .string value => "String(".toList ++ (Text.quoted value).toList ++ [')']
  | .array items => "Array [".toList ++ kindedItems items ++ [']']
  | .object fields => "Object \x7b".toList ++ kindedFields fields ++ ['\x7d']

/-- The kinded forms of items, with commas between them. -/
def kindedItems : List Json → List Char
  | [] => []
  | [item] => kindedChars item
  | item :: rest => kindedChars item ++ ',' :: ' ' :: kindedItems rest

/-- The kinded forms of fields, with commas between them. -/
def kindedFields : List (String × Json) → List Char
  | [] => []
  | [(key, value)] => (Text.quoted key).toList ++ ':' :: ' ' :: kindedChars value
  | (key, value) :: rest =>
    (Text.quoted key).toList ++ ':' :: ' ' :: kindedChars value ++ ',' :: ' ' :: kindedFields rest

end

/-- The form of a value that names the kind of each part. -/
def kinded (value : Json) : String :=
  String.ofList (kindedChars value)

/-! ## Piece by piece -/

/-- Whether a character of a string needs an escape. -/
def isEscaped (c : Char) : Bool :=
  escapeChar c != [c]

/-- The parts of a string, each escape being one of its own; `plain` holds, in reverse, the
characters since the last one. -/
def stringParts (plain : List Char) : List Char → List (List Char)
  | [] => if plain.isEmpty then [] else [plain.reverse]
  | c :: rest =>
    if isEscaped c then
      (if plain.isEmpty then [] else [plain.reverse]) ++ escapeChar c :: stringParts [] rest
    else stringParts (c :: plain) rest

/-- The pieces of a string in quotes. -/
def quotePieces (text : String) : List (List Char) :=
  ['"'] :: stringParts [] text.toList ++ [['"']]

mutual

/-- The pieces of a value. -/
def pieces : Json → List (List Char)
  | .null => ["null".toList]
  | .bool true => ["true".toList]
  | .bool false => ["false".toList]
  | .number value => [value.chars]
  | .string value => quotePieces value
  | .array items => ['['] :: itemPieces items ++ [[']']]
  | .object fields => ['\x7b'] :: fieldPieces fields ++ [['\x7d']]

/-- The pieces of items, with commas between them. -/
def itemPieces : List Json → List (List Char)
  | [] => []
  | [item] => pieces item
  | item :: rest => pieces item ++ [','] :: itemPieces rest

/-- The pieces of fields, with commas between them. -/
def fieldPieces : List (String × Json) → List (List Char)
  | [] => []
  | [(key, value)] => quotePieces key ++ [':'] :: pieces value
  | (key, value) :: rest => quotePieces key ++ [':'] :: pieces value ++ [','] :: fieldPieces rest

end

end Json
end Valset
