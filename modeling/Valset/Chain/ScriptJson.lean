import Valset.Chain.Script
import Valset.Json.Reader

/-!
# Prepared nodes as JSON

The form in which the answers of a prepared node are written down, and in which it tells what it was
asked. What is missing from a log is zero.
-/

namespace Valset
namespace Json

/-- The value under a key, or null. -/
def field (json : Json) (key : String) : Json :=
  (json.get? key).getD .null

/-- The text under a key, if there is one. -/
def text? (json : Json) (key : String) : Option String :=
  readString (json.field key)

/-- The text under a key, or the empty one. -/
def text (json : Json) (key : String) : String :=
  (json.text? key).getD ""

/-- The whole number under a key, if there is one. -/
def int? (json : Json) (key : String) : Option Int :=
  match json.field key with
  | .number (.whole value) => some value
  | _ => none

/-- The natural number under a key, if there is one. -/
def nat? (json : Json) (key : String) : Option Nat :=
  (json.int? key).map (·.toNat)

/-- The natural number under a key, or zero. -/
def nat (json : Json) (key : String) : Nat :=
  (json.nat? key).getD 0

/-- The number of thirty-two bits under a key. -/
def uint32 (json : Json) (key : String) : UInt32 :=
  UInt32.ofNat (json.nat key)

/-- The number of sixty-four bits under a key. -/
def uint64 (json : Json) (key : String) : UInt64 :=
  UInt64.ofNat (json.nat key)

/-- The number whose decimal digits stand under a key. -/
def decimal (json : Json) (key : String) : U256 :=
  BitVec.ofNat 256 ((json.text key).toNat?.getD 0)

/-- Whether there is a true value under a key. -/
def isTrue (json : Json) (key : String) : Bool :=
  (readBool (json.field key)).getD false

/-- The items of the array under a key. -/
def items (json : Json) (key : String) : List Json :=
  match json.field key with
  | .array values => values
  | _ => []

/-- The bytes that a value shows as digits; none if it does not. -/
def asBytes (json : Json) : Bytes :=
  (readBytes json).getD []

/-- The bytes under a key. -/
def bytes (json : Json) (key : String) : Bytes :=
  (json.field key).asBytes

/-- The byte string of a fixed length under a key. -/
def fixed {width : Nat} (json : Json) (key : String) : FixedBytes width :=
  .fit (json.bytes key)

/-- The byte string of a fixed length under a key, if there is one. -/
def fixed? {width : Nat} (json : Json) (key : String) : Option (FixedBytes width) :=
  (json.text? key).map fun _ => json.fixed key

/-- The byte strings of a fixed length in the array under a key. -/
def fixedList {width : Nat} (json : Json) (key : String) : List (FixedBytes width) :=
  (json.items key).map fun item => .fit item.asBytes

/-- The texts in the object under a key. -/
def texts (json : Json) (key : String) : List (String × String) :=
  match json.field key with
  | .object fields => fields.filterMap fun field => (readString field.2).map fun text =>
      (field.1, text)
  | _ => []

/-- An array of values. -/
def ofList {α : Type} (encode : α → Json) (values : List α) : Json :=
  .array (values.map encode)

/-- A value or null. -/
def orNull {α : Type} (encode : α → Json) (value : Option α) : Json :=
  .ofOption (value.map encode)

end Json

/-- The log that a value describes. -/
def Log.ofJson (json : Json) : Log where
  address := json.fixed "address"
  topics := json.fixedList "topics"
  data := json.bytes "data"
  blockNumber := json.uint64 "blockNumber"
  blockHash := json.fixed "blockHash"
  transactionHash := json.fixed "transactionHash"
  logIndex := BitVec.ofNat 256 (json.nat "logIndex")
  removed := json.isTrue "removed"

/-- The error that a value describes. -/
def RpcError.ofJson (json : Json) : RpcError where
  code := (json.int? "code").getD 0
  message := json.text "message"
  data := json.get? "data"

/-- A filter as it is sent to a node. -/
def LogFilter.toJson (filter : LogFilter) : Json :=
  let block (key : String) (value : Option UInt64) : List (String × Json) :=
    (value.map fun number => (key, Json.string (Hex.ofNat number.toNat))).toList
  let addresses := filter.addresses.map fun addresses =>
    ("address", Json.array (addresses.map .ofFixed))
  .object (addresses.toList ++ [("topics", .array (filter.topics.map .ofFixed))] ++
    block "fromBlock" filter.fromBlock ++ block "toBlock" filter.toBlock)

/-- A question as the node tells it. -/
def AskedQuestion.toJson : AskedQuestion → Json
  | .call contract data => .object [
      ("method", .string "eth_call"), ("to", .ofFixed contract), ("data", .ofBytes data),
      ("block", .string "latest")]
  | .logs filter => .object [("method", .string "eth_getLogs"), ("filter", filter.toJson)]
  | .send transaction => .object [
      ("method", .string "send"), ("to", .ofFixed transaction.target),
      ("data", .ofBytes transaction.data), ("value", .ofU256 transaction.value),
      ("accessList", .array (transaction.accessList.map fun entry => .object [
        ("address", .ofFixed entry.address),
        ("storageKeys", .array (entry.storageKeys.map .ofFixed))]))]

namespace PreparedNode

/-- A reply that is a value or describes an error. -/
def replyOf {α : Type} (read : Json → α) (json : Json) : Except RpcError α :=
  match json.get? "error" with
  | some error => .error (.ofJson error)
  | none => .ok (read json)

/-- The logs that a value describes. -/
def logsOf : Json → List Log
  | .array logs => logs.map Log.ofJson
  | _ => []

/-- The status of a receipt: one if nothing is said, none if it is said to be null. -/
def statusOf (json : Json) : Option UInt64 :=
  match json.get? "status" with
  | none => some 1
  | some _ => (json.int? "status").map fun status => UInt64.ofNat status.toNat

/-- What happens to a transaction. -/
def transactionOf (json : Json) : PreparedTransaction :=
  match json.get? "sendError", json.get? "gasError" with
  | some error, _ => .refused (.ofJson error)
  | none, some error => .unestimated (.ofJson error)
  | none, none =>
    if json.isTrue "dropped" then .dropped
    else .included (logsOf (json.field "logs")) (statusOf json)

/-- The node that a value describes. -/
def ofJson (json : Json) : PreparedNode where
  calls := (json.items "calls").map (replyOf Json.asBytes)
  logs := (json.items "logs").map (replyOf logsOf)
  transactions := (json.items "txs").map transactionOf
  chainId := UInt64.ofNat (((json.int? "chainId").getD 99999).toNat)
  head := json.uint64 "head"

/-- What a node was asked, in order. -/
def askedJson (node : PreparedNode) : Json :=
  .array (node.asked.map (·.toJson))

end PreparedNode
end Valset
