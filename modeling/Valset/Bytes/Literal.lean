import Valset.Bytes.Hex
import Valset.Text.Blank

/-!
# Address literals

The ways in which an address is written down in a text: forty hexadecimal digits in either case,
behind a marker or none. A literal may have quotes around them, an entered address blanks between
them.
-/

namespace Valset
namespace Address

/-- Drops quotes at the front. -/
def dropQuotes (chars : List Char) : List Char :=
  chars.dropWhile (· == '"')

/-- What a literal holds between its quotes and behind its marker. -/
def literalDigits (literal : String) : List Char :=
  let inner := (dropQuotes (dropQuotes (Text.trimChars literal.toList)).reverse).reverse
  match inner with
  | '0' :: 'x' :: digits => digits
  | '0' :: 'X' :: digits => digits
  | digits => digits

/-- The address that a literal stands for. -/
def ofLiteral? (literal : String) : Option Address := do
  FixedBytes.ofBytes? (← (Hex.decode (String.ofList (literalDigits literal))).toOption)

/-- Whether a character may stand between digits. -/
def isGap (c : Char) : Bool :=
  c == ' ' || c == '\t' || c == '\r' || c == '\n'

/-- The address that somebody enters. -/
def parse? (text : String) : Option Address := do
  let digits := (Hex.dropMarker text.toList).filter (!isGap ·)
  FixedBytes.ofBytes? (← (Hex.decode (String.ofList digits)).toOption)

end Address
end Valset
