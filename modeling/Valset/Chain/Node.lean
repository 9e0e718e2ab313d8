import Valset.Bytes.Hex
import Valset.Chain.Transaction
import Valset.Json.Printer
import Valset.Program
import Valset.Text.Blank

/-!
# Nodes

What a node can be asked, and how it may refuse.
-/

namespace Valset

/-- An error that a node answers. -/
structure RpcError where
  code : Int
  message : String
  data : Option Json

namespace RpcError

/-- The wording of an error. -/
def text (error : RpcError) : String :=
  let data :=
    match error.data with
    | some value => s!"Some({value.kinded})"
    | none => "None"
  s!"(code: {error.code}, message: {error.message}, data: {data})"

/-- Whether an error reports that a contract refused a call. -/
def isRevert (error : RpcError) : Bool :=
  Text.holds "revert".toList error.message.toList

mutual

/-- The first hexadecimal text in a value or the fields inside it. -/
def findHex? : Json → Option Bytes
  | .string text => (Hex.decode0x text).toOption
  | .object fields => findHexIn? fields
  | _ => none

/-- The first hexadecimal text in the fields of an object. -/
def findHexIn? : List (String × Json) → Option Bytes
  | [] => none
  | (_, value) :: rest => findHex? value <|> findHexIn? rest

end

/-- The data with which a contract refused a call. -/
def revertData? (error : RpcError) : Option Bytes :=
  if error.isRevert then some ((error.data.bind fun value => findHex? value.canonical).getD [])
  else none

end RpcError

/-- Why a question to a node stays without result: the node refuses it, or cannot be asked. -/
inductive NodeError
  | rpc (error : RpcError)
  | transport (text : String)

/-- The wording of an error. -/
def NodeError.text : NodeError → String
  | .rpc error => error.text
  | .transport text => text

/-- A question to a node. -/
inductive NodeQuestion
  | chainId
  | blockNumber
  | call (contract : Address) (data : Bytes)
  | logs (filter : LogFilter)
  | send (transaction : Transaction)
  | receipt (hash : Hash32)

/-- The answer to a question, when there is one. -/
def NodeQuestion.Reply : NodeQuestion → Type
  | .chainId => UInt64
  | .blockNumber => UInt64
  | .call _ _ => Bytes
  | .logs _ => List Log
  | .send _ => Hash32
  | .receipt _ => Option Receipt

/-- Conversations with a node. The answer to a transaction is its hash; the answer to the question
for its receipt is none when the node has dropped it. -/
def NodeDialogue : Dialogue where
  Question := NodeQuestion
  Answer question := Except NodeError question.Reply

end Valset
