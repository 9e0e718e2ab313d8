import Valset.Chain.Script
import Valset.Files.Tree
import Valset.Scan.Scanner

/-!
# Prepared surroundings of scans

A node, files and an output for scans as a value. The output keeps a trace of what happens to it,
and refuses a write or a flush with a chosen number.
-/

namespace Valset
namespace Scan

/-- What happens to an output. A flush is remembered with the files of its moment. -/
inductive TraceEntry
  | written (record : EventRecord)
  | flushed (tree : FileTree)

/-- What surrounds a scan. -/
structure Surroundings where
  node : PreparedNode
  tree : FileTree
  connection : Except NodeError Unit
  deliveries : List Log
  refusedWrite : Option Nat
  refusedFlush : Option Nat
  trace : List TraceEntry := []
  writes : Nat := 0
  flushes : Nat := 0

namespace Surroundings

/-- The error of what the output refuses. -/
def refusal : ScanError :=
  .output "<trace>" (.other "refused")

/-- Does something with the files. -/
def withTree {α : Type} (action : StateM FileTree α) : StateM Surroundings α := fun world =>
  let (result, tree) := action.run world.tree
  (result, { world with tree })

/-- Does something with the node. -/
def withNode {α : Type} (action : StateM PreparedNode α) : StateM Surroundings α := fun world =>
  let (result, node) := action.run world.node
  (result, { world with node })

/-- Takes a step with files. -/
def files {α : Type} (step : FileProgram α) : StateM Surroundings (Except FileError α) :=
  withTree (Program.run FileTree.answer step.run)

/-- Takes a record. -/
def write (record : EventRecord) : StateM Surroundings (Except ScanError Unit) := fun world =>
  let world := { world with writes := world.writes + 1 }
  if world.refusedWrite = some world.writes then (.error refusal, world)
  else (.ok (), { world with trace := world.trace ++ [.written record] })

/-- Takes a flush. -/
def flush : StateM Surroundings (Except ScanError Unit) := fun world =>
  let world := { world with flushes := world.flushes + 1 }
  if world.refusedFlush = some world.flushes then (.error refusal, world)
  else (.ok (), { world with trace := world.trace ++ [.flushed world.tree] })

/-- Answers a question. -/
def answer : (question : ScanQuestion) → StateM Surroundings question.Reply
  | .connect => fun world => (world.connection, world)
  | .node question => withNode (PreparedNode.answer question)
  | .subscribe _ => fun world => (.ok (), world)
  | .deliveries => fun world => (world.deliveries, world)
  | .write record => write record
  | .flush => flush
  | .load path chain => files (Checkpoint.load path chain)
  | .store checkpoint block => files (checkpoint.store block)

/-- Takes a step of a scan. -/
def perform {α : Type} (world : Surroundings) (checkpoint : Checkpoint) (step : Scanning α) :
    (Except ScanError α × Checkpoint) × Surroundings :=
  (Program.run answer (step.run.run checkpoint)).run world

/-- Does a whole scan. -/
def performScan {α : Type} (world : Surroundings) (step : ScanProgram α) :
    Except ScanError α × Surroundings :=
  (Program.run answer step.run).run world

end Surroundings
end Scan
end Valset
