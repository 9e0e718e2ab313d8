import Valset.Amount
import Valset.Bytes.Literal
import Valset.CommandLine.Grammar
import Valset.Config
import Valset.Id

/-!
# Values of arguments

How the texts of arguments are read, and the signed messages that several commands take.
-/

namespace Valset
namespace CommandLine
namespace ArgumentReader

/-- Any text. -/
def text : ArgumentReader String where
  read := some

/-- The path of a file, which is not empty. -/
def path : ArgumentReader String where
  read text := if text == "" then none else some text
  refusal := .invalidChoice

/-- One of some names. -/
def choice {α : Type} (names : List (String × α)) : ArgumentReader α where
  read text := names.lookup text
  refusal := .invalidChoice

/-- A network. -/
def network : ArgumentReader Network :=
  choice Network.names

/-- A way to take stake. -/
def token : ArgumentReader TokenKind where
  read text := TokenKind.names.lookup text

/-- The number with given digits, of which there must be one. -/
def digits? : List Char → Option Nat
  | [] => none
  | digits => if digits.all Char.isDigit then some (Amount.ofDigits digits) else none

/-- A whole number, which may stand behind a plus. -/
def natural? : List Char → Option Nat
  | '+' :: digits => digits? digits
  | digits => digits? digits

/-- A whole number that is not negative, which may stand behind a sign. -/
def signed? : List Char → Option Nat
  | '-' :: digits => do
    let value ← digits? digits
    if value = 0 then some 0 else none
  | digits => natural? digits

/-- A number that is below a bound. -/
def below? (bound : Nat) (value : Option Nat) : Option Nat :=
  value.filter (· < bound)

/-- A number of sixteen bits. -/
def uint16 : ArgumentReader UInt16 where
  read text := UInt16.ofNat <$> below? UInt16.size (signed? text.toList)

/-- A number of thirty-two bits. -/
def uint32 : ArgumentReader UInt32 where
  read text := UInt32.ofNat <$> below? UInt32.size (signed? text.toList)

/-- A number of sixty-four bits. -/
def uint64 : ArgumentReader UInt64 where
  read text := UInt64.ofNat <$> below? UInt64.size (natural? text.toList)

/-- An amount of tokens. -/
def amount : ArgumentReader U256 where
  read text := (Amount.parse text).toOption

/-- Bytes as hexadecimal digits. -/
def bytes : ArgumentReader Bytes where
  read text := (Hex.decode0x text).toOption

/-- The address of an account or contract. -/
def address : ArgumentReader Address where
  read := Address.parse?

/-- The address of an owner on the P-Chain. -/
def owner : ArgumentReader Address where
  read text := (OwnerAddress.parse text).toOption

/-- An identifier. -/
def id {kind : IdKind} : ArgumentReader (Id kind) where
  read text := (Id.parse text).toOption

/-- A node id. -/
def node : ArgumentReader NodeId where
  read text := (NodeId.parse text).toOption

end ArgumentReader
end CommandLine

/-! ## Signed messages -/

/-- Signed messages, and the position of the one that is read. -/
structure SignedMessages where
  messages : List Bytes
  index : UInt32

namespace SignedMessages

open CommandLine

/-- The arguments that name signed messages. -/
def arguments : Arguments SignedMessages :=
  SignedMessages.mk <$> .many (.option "warp-message") .bytes <*>
    .withDefault (.option "message-index") .uint32 0

end SignedMessages
end Valset
