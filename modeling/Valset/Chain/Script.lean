import Valset.Chain.Node

/-!
# Prepared nodes

A node that answers from lists prepared beforehand and remembers what it was asked. A list that has
run out answers an error. Transactions get the numbers 1, 2, … as their hashes in the order in which
they are accepted.
-/

namespace Valset

/-- What happens to a transaction. -/
inductive PreparedTransaction
  | included (logs : List Log) (status : Option UInt64)
  | dropped
  | refused (error : RpcError)
  | unestimated (error : RpcError)

/-- A question that a prepared node remembers. -/
inductive AskedQuestion
  | call (contract : Address) (data : Bytes)
  | logs (filter : LogFilter)
  | send (transaction : Transaction)

/-- A node that answers from lists. -/
structure PreparedNode where
  calls : List (Except RpcError Bytes) := []
  logs : List (Except RpcError (List Log)) := []
  transactions : List PreparedTransaction := []
  chainId : UInt64 := 99999
  head : UInt64 := 0
  accepted : List (Option Receipt) := []
  asked : List AskedQuestion := []

namespace PreparedNode

/-- The error of a list that has run out. -/
def exhausted : RpcError :=
  ⟨-32000, "script exhausted", none⟩

/-- Remembers a question. -/
def remember (question : AskedQuestion) : StateM PreparedNode Unit :=
  modify fun node => { node with asked := node.asked ++ [question] }

/-- Accepts a transaction with a receipt or none; gives its hash. -/
def accept (receipt : Hash32 → Option Receipt) : StateM PreparedNode Hash32 := do
  let node ← get
  let hash : Hash32 := FixedBytes.ofNat (node.accepted.length + 1)
  set { node with accepted := node.accepted ++ [receipt hash] }
  return hash

/-- Answers a call. -/
def answerCall (contract : Address) (data : Bytes) :
    StateM PreparedNode (Except NodeError Bytes) := do
  remember (.call contract data)
  let node ← get
  match node.calls with
  | [] => return .error (.rpc exhausted)
  | reply :: rest =>
    set { node with calls := rest }
    return reply.mapError .rpc

/-- Answers a question for logs. -/
def answerLogs (filter : LogFilter) : StateM PreparedNode (Except NodeError (List Log)) := do
  remember (.logs filter)
  let node ← get
  match node.logs with
  | [] => return .error (.rpc exhausted)
  | reply :: rest =>
    set { node with logs := rest }
    return reply.mapError .rpc

/-- Answers a transaction. -/
def answerSend (transaction : Transaction) : StateM PreparedNode (Except NodeError Hash32) := do
  let node ← get
  match node.transactions with
  | [] =>
    remember (.send transaction)
    return .error (.rpc exhausted)
  | reply :: rest =>
    set { node with transactions := rest }
    match reply with
    | .unestimated error => return .error (.rpc error)
    | .refused error =>
      remember (.send transaction)
      return .error (.rpc error)
    | .dropped =>
      remember (.send transaction)
      return .ok (← accept fun _ => none)
    | .included logs status =>
      remember (.send transaction)
      return .ok (← accept fun hash => some ⟨hash, status, logs⟩)

/-- The receipt of an accepted transaction. -/
def receiptOf (node : PreparedNode) (hash : Hash32) : Option Receipt :=
  (node.accepted[hash.toNat - 1]?).join

/-- Answers a question. -/
def answer : (question : NodeQuestion) → StateM PreparedNode (Except NodeError question.Reply)
  | .chainId => do return .ok (← get).chainId
  | .blockNumber => do return .ok (← get).head
  | .call contract data => answerCall contract data
  | .logs filter => answerLogs filter
  | .send transaction => answerSend transaction
  | .receipt hash => do return .ok ((← get).receiptOf hash)

end PreparedNode

/-- The result of asking a node that cannot be reached. -/
def unreachable (text : String) (question : NodeQuestion) : Except NodeError question.Reply :=
  .error (.transport text)

end Valset
