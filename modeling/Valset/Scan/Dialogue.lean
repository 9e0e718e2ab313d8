import Valset.Event.Record
import Valset.Manager.Operation
import Valset.Scan.Checkpoint

/-!
# What scanning asks for

A scan asks a node for events, hands records to an output and stores its checkpoint.
-/

namespace Valset
namespace Scan

/-- Why scanning stops. -/
inductive ScanError
  | noAddresses
  | invalidAddress (text : String)
  | output (path : String) (fault : FileFault)
  | brokenRecord (fault : FileFault)
  | indexOverflow
  | provider (cause : NodeError)
  | manager (cause : ManagerError)
  | file (cause : FileError)

/-- The wording of an error. -/
def ScanError.text : ScanError → String
  | noAddresses => "No contracts to monitor"
  | invalidAddress text => "Invalid contract address " ++ text
  | output path fault => s!"Could not write to {path}: {fault.text}"
  | brokenRecord fault => fault.text
  | indexOverflow => "Integer overflow when casting to u64"
  | provider cause => cause.text
  | manager cause => cause.text
  | file cause => cause.text

/-- A question of a scan. The deliveries are all logs that the subscriptions bring until they end,
in the order of their arrival. -/
inductive ScanQuestion
  | connect
  | node (question : NodeQuestion)
  | subscribe (address : Address)
  | deliveries
  | write (record : EventRecord)
  | flush
  | load (path : String) (chain : Nat)
  | store (checkpoint : Checkpoint) (block : Nat)

/-- The answer to a question. -/
def ScanQuestion.Reply : ScanQuestion → Type
  | .connect => Except NodeError Unit
  | .node question => Except NodeError question.Reply
  | .subscribe _ => Except NodeError Unit
  | .deliveries => List Log
  | .write _ => Except ScanError Unit
  | .flush => Except ScanError Unit
  | .load _ _ => Except FileError Checkpoint
  | .store _ _ => Except FileError Unit

/-- Conversations of a scan with a node, an output and the file of its checkpoint. -/
def ScanDialogue : Dialogue where
  Question := ScanQuestion
  Answer := ScanQuestion.Reply

/-- A step of a scan that does not use the checkpoint. -/
abbrev ScanProgram := ExceptT ScanError (Program ScanDialogue)

/-- A step of a scan. The checkpoint stays known when the step fails. -/
abbrev Scanning := ExceptT ScanError (StateT Checkpoint (Program ScanDialogue))

/-- Asks one question. -/
def ask (question : ScanQuestion) : ScanProgram question.Reply :=
  ExceptT.mk (.ask question fun reply => .done (.ok reply))

/-- Asks one question whose answer may be an error. -/
def askOr {α : Type} (question : ScanQuestion) (asResult : question.Reply → Except ScanError α) :
    ScanProgram α := do
  ofExcept (asResult (← ask question))

/-- The same step with the checkpoint left alone. -/
def ScanProgram.scanning {α : Type} (step : ScanProgram α) : Scanning α :=
  ExceptT.mk (StateT.lift step.run)

/-- An operation on contracts as a step of a scan. -/
def ofOperation {α : Type} (operation : Operation α) : ScanProgram α :=
  ExceptT.mk do
    let result ← operation.run.embed ScanQuestion.node fun _ reply => reply
    return result.mapError ScanError.manager

/-- What is done for the events of a scan. A record that could not be made cannot be written. -/
inductive ScanAction
  | write (record : Option EventRecord)
  | flush
  | advance (block : Nat)

/-- Stores a block as the last complete one. -/
def storeBlock (checkpoint : Checkpoint) (block : Nat) : ScanProgram Unit :=
  askOr (.store checkpoint block) fun reply => Except.mapError .file reply

/-- Does one thing. -/
def ScanAction.perform : ScanAction → Scanning Unit
  | .write (some record) => (askOr (.write record) fun reply => reply).scanning
  | .write none => throw .indexOverflow
  | .flush => (askOr .flush fun reply => reply).scanning
  | .advance block => do
    set (← (Checkpoint.advance storeBlock (← get) block).scanning)

/-- Does things one after the other until one of them fails. -/
def performAll (actions : List ScanAction) : Scanning Unit :=
  actions.forM ScanAction.perform

end Scan
end Valset
