import Valset.Chain.Node
import Valset.Contract.Revert
import Valset.Event
import Valset.Url
import Valset.Validator

/-!
# Errors of operations on the managers

What keeps a question to a contract, a transaction or a check from succeeding.
-/

namespace Valset

/-- Why a call of a contract fails before its result is looked at. -/
inductive CallError
  | revert (data : Bytes)
  | client (cause : NodeError)
  | provider (cause : NodeError)
  | undecodable (cause : AbiError)
  | undecodableResult (cause : AbiError)
  | constructorUndefined
  | notDeployed

/-- The failure of a question that a client put to a node; a refusal by the contract is
recognised. -/
def CallError.ofNodeError : NodeError → CallError
  | .rpc error =>
    match error.revertData? with
    | some data => .revert data
    | none => .client (.rpc error)
  | .transport text => .client (.transport text)

/-- The failure of a question that went to a node directly; a refusal by the contract is
recognised. -/
def CallError.ofProviderError : NodeError → CallError
  | .rpc error =>
    match error.revertData? with
    | some data => .revert data
    | none => .provider (.rpc error)
  | .transport text => .provider (.transport text)

/-- Whether a code of a status belongs to a validator or to a delegation. -/
inductive StatusKind
  | validator
  | delegator
deriving DecidableEq, Repr

/-- The name of the kind of a status. -/
def StatusKind.name : StatusKind → String
  | validator => "validator"
  | delegator => "delegator"

/-- Why an operation on a manager fails. -/
inductive ManagerError
  | undecodableResult (cause : AbiError)
  | constructorUndefined
  | notDeployed
  | client (text : String)
  | revert (data : Bytes)
  | rpc (error : RpcError)
  | provider (cause : NodeError)
  | undecodable (cause : AbiError)
  | logQuery (cause : NodeError)
  | invalidUrl (url : String) (cause : Url.Error)
  | dropped (transaction : Hash32)
  | reverted (transaction : Hash32)
  | missingEvent (transaction : Hash32) (kind : EventKind)
  | invalidStatus (kind : StatusKind) (code : UInt8)
  | preflight (cause : PreflightError)
  | message (cause : MessageError)
  | id (cause : IdError)

namespace ManagerError

/-- The error of a failed call. -/
def ofCall : CallError → ManagerError
  | .revert data => .revert data
  | .client (.rpc error) => .rpc error
  | .client (.transport text) => .client text
  | .provider (.rpc error) => .rpc error
  | .provider (.transport text) => .provider (.transport text)
  | .undecodable cause => .undecodable cause
  | .undecodableResult cause => .undecodableResult cause
  | .constructorUndefined => .constructorUndefined
  | .notDeployed => .notDeployed

/-- The data with which a contract refused a call, if that is what happened. -/
def revertData? : ManagerError → Option Bytes
  | .revert data => some data
  | .rpc error => error.revertData?
  | _ => none

/-- The wording of an error. -/
def text : ManagerError → String
  | .undecodableResult cause => "Contract call failed: " ++ cause.message
  | .constructorUndefined => "Contract call failed: constructor is not defined in the ABI"
  | .notDeployed => "Contract call failed: Contract was not deployed"
  | .client text => "Middleware error: " ++ text
  | .revert data => "Contract reverted: " ++ Revert.describe data
  | .rpc error => "JSON RPC Error " ++ error.text
  | .provider cause => cause.text
  | .undecodable cause => "Could not decode contract data: " ++ cause.message
  | .logQuery cause => "Log query failed: " ++ cause.text
  | .invalidUrl url cause => s!"Invalid RPC url {url}: {cause.message}"
  | .dropped transaction => s!"Transaction {transaction.toHex} was dropped from the mempool"
  | .reverted transaction => s!"Transaction {transaction.toHex} reverted"
  | .missingEvent transaction kind =>
    s!"Receipt of {transaction.toHex} has no {kind.name} event"
  | .invalidStatus kind code => s!"Unknown {kind.name} status {code}"
  | .preflight cause => "Rejected before sending: " ++ cause.message
  | .message cause => cause.message
  | .id cause => cause.message

end ManagerError

/-- The status of a validator with a code. -/
def ValidatorStatus.ofCode (code : UInt8) : Except ManagerError ValidatorStatus :=
  match ofCode? code with
  | some status => .ok status
  | none => .error (.invalidStatus .validator code)

/-- The status of a delegation with a code. -/
def DelegatorStatus.ofCode (code : UInt8) : Except ManagerError DelegatorStatus :=
  match ofCode? code with
  | some status => .ok status
  | none => .error (.invalidStatus .delegator code)

end Valset
