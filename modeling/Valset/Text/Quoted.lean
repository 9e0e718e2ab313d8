import Valset.Text.Shapeless

/-!
# Quoted text

A text between quotes in which every character can be seen: the quote and the backslash get a
backslash, the usual control characters a letter, and shapeless characters their number.
-/

namespace Valset
namespace Text

/-- A character by its number, as in `\u{7f}`. -/
def numbered (c : Char) : List Char :=
  "\\u\x7b".toList ++ Nat.toDigits 16 c.toNat ++ ['}']

/-- How a character stands between quotes of the given kind. -/
def quotedChar (quote c : Char) : List Char :=
  if c = '\x00' then ['\\', '0']
  else if c = '\t' then ['\\', 't']
  else if c = '\r' then ['\\', 'r']
  else if c = '\n' then ['\\', 'n']
  else if c = '\\' ∨ c = quote then ['\\', c]
  else if isShapeless c then numbered c
  else [c]

/-- A text in double quotes. -/
def quoted (text : String) : String :=
  String.ofList ('"' :: text.toList.flatMap (quotedChar '"') ++ ['"'])

/-- A character in single quotes. -/
def quotedSingle (c : Char) : String :=
  String.ofList ('\'' :: quotedChar '\'' c ++ ['\''])

end Text
end Valset
