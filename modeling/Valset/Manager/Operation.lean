import Valset.Contract.Function
import Valset.Error
import Valset.Warp

/-!
# Operations on contracts

Reading from a contract, and changing it by a transaction whose receipt is awaited.
-/

namespace Valset

/-- A computation that asks a node and may fail. -/
abbrev Operation := ExceptT ManagerError (Program NodeDialogue)

namespace Operation

/-- Asks a node one question. -/
def ask (question : NodeQuestion) : Operation (Except NodeError question.Reply) :=
  ExceptT.mk (.ask question fun reply => .done (.ok reply))

/-- Goes on with a value that is there, or fails. -/
def getOrThrow {α : Type} (value : Option α) (error : ManagerError) : Operation α :=
  ofExcept (match value with
    | some value => .ok value
    | none => .error error)

/-- Calls a function of a contract without changing the chain. -/
def read (contract : Address) (function : ContractFunction) (arguments : List AbiValue) :
    Operation (List AbiValue) := do
  match ← ask (.call contract (function.callData arguments)) with
  | .error cause => throw (.ofCall (.ofNodeError cause))
  | .ok data => ofExcept ((Abi.decode function.outputs data).mapError .undecodableResult)

/-- Calls a function of a contract and takes its only result apart. -/
def readOne {α : Type} (contract : Address) (function : ContractFunction)
    (arguments : List AbiValue) (extract : AbiValue → Option α) : Operation α := do
  let results ← read contract function arguments
  getOrThrow (results.head?.bind extract) (.undecodableResult .invalidData)

/-- Sends a transaction and awaits its receipt, which must not report a failure. -/
def confirm (transaction : Transaction) : Operation Receipt := do
  match ← ask (.send transaction) with
  | .error cause => throw (.ofCall (.ofNodeError cause))
  | .ok (hash : Hash32) =>
    match ← ask (.receipt hash) with
    | .error cause => throw (.provider cause)
    | .ok none => throw (.dropped hash)
    | .ok (some (receipt : Receipt)) =>
      if receipt.reverted then throw (.reverted hash)
      return receipt

/-- The transaction that calls a function of a contract. -/
def callOf (contract : Address) (function : ContractFunction) (arguments : List AbiValue) :
    Transaction :=
  { target := contract, data := function.callData arguments }

/-- Sends a transaction that carries signed messages, and awaits its receipt. -/
def confirmWithMessages (transaction : Transaction) (messages : List Bytes) (index : UInt32) :
    Operation Receipt := do
  let transaction ← ofExcept ((Warp.attach transaction messages index).mapError .preflight)
  confirm transaction

/-- What the first event of a kind in a receipt says. -/
def expectEvent {α : Type} (receipt : Receipt) (kind : EventKind) (extract : Event → Option α) :
    Operation α :=
  getOrThrow ((receipt.event? kind).bind extract) (.missingEvent receipt.transactionHash kind)

end Operation
end Valset
