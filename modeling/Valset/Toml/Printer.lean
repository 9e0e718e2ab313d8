import Valset.Toml

/-!
# TOML text from values

The values of a table come before the tables inside it. Tables get headers of their own, also those
in an array that holds nothing else; all other arrays and tables stand within a line. Each string
has the first of the four forms that shows it without an escape, if one does.
-/

namespace Valset
namespace Toml

/-! ## Strings and keys -/

/-- The length of the longest run of a character, `run` being the length of the one that reaches up
to the text. -/
def longestRun (mark : Char) (run : Nat) : List Char → Nat
  | [] => run
  | c :: rest =>
    if c = mark then longestRun mark (run + 1) rest else max run (longestRun mark 0 rest)

/-- Whether a character is a control character other than a tab and a line break. -/
def isControl (c : Char) : Bool :=
  (c.toNat < 0x20 && c != '\t' && c != '\n') || c.toNat == 0x7f

/-- The forms of strings: with escapes in double quotes, without any in single quotes, and both
over several lines in three of them. -/
inductive StringForm
  | basic
  | literal
  | multiBasic
  | multiLiteral
deriving DecidableEq, Repr

/-- Whether a form shows a string without an escape. -/
def StringForm.isPlainFor (chars : List Char) : StringForm → Bool
  | basic =>
    !chars.any isControl && !chars.contains '\\' && !chars.contains '"' && !chars.contains '\n'
  | literal => !chars.any isControl && !chars.contains '\'' && !chars.contains '\n'
  | multiBasic => !chars.any isControl && !chars.contains '\\' && longestRun '"' 0 chars ≤ 2
  | multiLiteral => !chars.any isControl && longestRun '\'' 0 chars ≤ 2

/-- The form of a string. -/
def StringForm.forString (chars : List Char) : StringForm :=
  match [basic, literal, multiBasic, multiLiteral].find? (isPlainFor chars) with
  | some found => found
  | none => if chars.contains '\n' then multiBasic else basic

/-- The form of a key that is not bare. -/
def StringForm.forKey (chars : List Char) : StringForm :=
  (([basic, literal] : List StringForm).find? (isPlainFor chars)).getD basic

/-- A number in four digits of base sixteen, in upper case. -/
def upperHex4 (value : Nat) : List Char :=
  let digits := (Nat.toDigits 16 value).map Char.toUpper
  List.replicate (4 - digits.length) '0' ++ digits

/-- The escape of a character, if it needs one; `multi` says whether it stands in a string over
several lines. A double quote is dealt with apart. -/
def escape? (multi : Bool) (c : Char) : Option (List Char) :=
  if c = '\x08' then some ['\\', 'b']
  else if c = '\t' then some ['\\', 't']
  else if c = '\n' then if multi then none else some ['\\', 'n']
  else if c = '\x0c' then some ['\\', 'f']
  else if c = '\r' then some ['\\', 'r']
  else if c = '\\' then some ['\\', '\\']
  else if c.toNat < 0x20 ∨ c.toNat = 0x7f then some ('\\' :: 'u' :: upperHex4 c.toNat)
  else none

/-- The characters of a string with escapes. Up to two double quotes in a row, of which `run` have
passed, stand for themselves in a string over several lines. -/
def escaped (multi : Bool) (run : Nat) : List Char → List Char
  | [] => []
  | c :: rest =>
    if c = '"' then
      if multi ∧ run < 2 then c :: escaped multi (run + 1) rest
      else '\\' :: '"' :: escaped multi 0 rest
    else
      match escape? multi c with
      | some escape => escape ++ escaped multi 0 rest
      | none => c :: escaped multi 0 rest

/-- What stands behind the opening quotes of a string over several lines. -/
def opening (chars : List Char) : List Char :=
  if chars.contains '\n' then ['\n'] else []

/-- A string in a form. -/
def StringForm.write (chars : List Char) : StringForm → List Char
  | basic => '"' :: escaped false 0 chars ++ ['"']
  | literal => '\'' :: chars ++ ['\'']
  | multiBasic => "\"\"\"".toList ++ opening chars ++ escaped true 0 chars ++ "\"\"\"".toList
  | multiLiteral => "'''".toList ++ opening chars ++ chars ++ "'''".toList

/-- A string. -/
def stringChars (value : String) : List Char :=
  (StringForm.forString value.toList).write value.toList

/-- Whether a character may stand in a bare key. -/
def isBareChar (c : Char) : Bool :=
  ('A' ≤ c && c ≤ 'Z') || ('a' ≤ c && c ≤ 'z') || ('0' ≤ c && c ≤ '9') || c == '_' || c == '-'

/-- A key: bare if possible, else in quotes. -/
def keyChars (key : String) : List Char :=
  let chars := key.toList
  if !chars.isEmpty && chars.all isBareChar then chars
  else (StringForm.forKey chars).write chars

/-- The keys on a path, with dots between them. -/
def pathChars (path : List String) : List Char :=
  List.intercalate ['.'] (path.map keyChars)

/-! ## Values within a line -/

mutual

/-- A value within a line. -/
def inlineChars : Toml → List Char
  | .string value => stringChars value
  | .integer value => (toString value).toList
  | .double value => value.plainText.toList
  | .bool true => "true".toList
  | .bool false => "false".toList
  | .dateTime text => text.toList
  | .array items => '[' :: inlineItems items ++ [']']
  | .table [] => ['\x7b', '\x7d']
  | .table fields => '\x7b' :: ' ' :: inlineFields fields ++ [' ', '\x7d']

/-- Items within a line, with commas between them. -/
def inlineItems : List Toml → List Char
  | [] => []
  | [item] => inlineChars item
  | item :: rest => inlineChars item ++ ',' :: ' ' :: inlineItems rest

/-- Fields within a line, with commas between them. -/
def inlineFields : List (String × Toml) → List Char
  | [] => []
  | [(key, value)] => keyChars key ++ " = ".toList ++ inlineChars value
  | (key, value) :: rest =>
    keyChars key ++ " = ".toList ++ inlineChars value ++ ',' :: ' ' :: inlineFields rest

end

/-! ## Documents -/

/-- Whether a value is a table. -/
def isTable : Toml → Bool
  | .table _ => true
  | _ => false

/-- Whether a field gets headers of its own. -/
def hasHeader : Toml → Bool
  | .table _ => true
  | .array items => !items.isEmpty && items.all isTable
  | _ => false

/-- The line of a field without a header. -/
def fieldLine (field : String × Toml) : List Char :=
  keyChars field.1 ++ " = ".toList ++ inlineChars field.2 ++ ['\n']

/-- The lines of those fields that have no header. -/
def plainFields (fields : List (String × Toml)) : List Char :=
  (fields.filter fun field => !hasHeader field.2).flatMap fieldLine

/-- Whether a table shows a header: it has lines of its own or nothing at all. -/
def showsHeader (fields : List (String × Toml)) : Bool :=
  fields.isEmpty || fields.any fun field => !hasHeader field.2

/-- A piece of a document: the lines of one table behind its header, if it has one. -/
structure Block where
  header : Option (List Char)
  lines : List Char

/-- The header of a table. -/
def tableHeader (path : List String) : List Char :=
  '[' :: pathChars path ++ [']', '\n']

/-- The header of a table in an array. -/
def itemHeader (path : List String) : List Char :=
  '[' :: '[' :: pathChars path ++ [']', ']', '\n']

mutual

/-- The blocks of a value with a header of its own. -/
def valueBlocks (path : List String) : Toml → List Block
  | .table fields =>
    (if showsHeader fields then [⟨some (tableHeader path), plainFields fields⟩] else []) ++
      fieldBlocks path fields
  | .array items => if items.all isTable then itemBlocks path items else []
  | _ => []

/-- The blocks of the tables in an array. -/
def itemBlocks (path : List String) : List Toml → List Block
  | [] => []
  | .table fields :: rest =>
    ⟨some (itemHeader path), plainFields fields⟩ :: fieldBlocks path fields ++ itemBlocks path rest
  | _ :: rest => itemBlocks path rest

/-- The blocks of the fields of a table. -/
def fieldBlocks (path : List String) : List (String × Toml) → List Block
  | [] => []
  | (key, value) :: rest => valueBlocks (path ++ [key]) value ++ fieldBlocks path rest

end

/-- The text of blocks. All headers but one at the very beginning have an empty line above them. -/
def blockChars (isFirst : Bool) : List Block → List Char
  | [] => []
  | block :: rest =>
    let header := match block.header with
      | some header => if isFirst then header else '\n' :: header
      | none => []
    header ++ block.lines ++
      blockChars (isFirst && block.header.isNone && block.lines.isEmpty) rest

/-- The text of a table as a document. -/
def documentChars (fields : List (String × Toml)) : List Char :=
  blockChars true (⟨none, plainFields fields⟩ :: fieldBlocks [] fields)

/-- The text of a document; only a table has one. -/
def print? : Toml → Option String
  | .table fields => some (String.ofList (documentChars fields))
  | _ => none

end Toml
end Valset
