import Valset.Bytes
import Valset.Text.Blank

/-!
# Amounts of tokens

Amounts in the smallest unit of a token, written in decimal digits.
-/

namespace Valset
namespace Amount

/-- Why a text is not an amount. -/
inductive Error
  | invalidCharacter
  | tooLarge
deriving DecidableEq, Repr

/-- The wording of an error. -/
def Error.message : Error → String
  | invalidCharacter => "a character is not in the range 0-9"
  | tooLarge => "the number is too large for the type"

/-- The number with given decimal digits. -/
def ofDigits (digits : List Char) : Nat :=
  digits.foldl (fun value c => 10 * value + (c.toNat - '0'.toNat)) 0

/-- Reads an amount; blanks around it do not count, and no digits are zero. -/
def parse (text : String) : Except Error U256 :=
  let digits := Text.trimChars text.toList
  if !digits.all Char.isDigit then .error .invalidCharacter
  else if ofDigits digits < Nat.pow 2 256 then .ok (BitVec.ofNat 256 (ofDigits digits))
  else .error .tooLarge

/-- The wording for a text that is not an amount. -/
def refusal (text : String) (cause : Error) : String :=
  s!"invalid amount {text}: {cause.message}"

end Amount
end Valset
