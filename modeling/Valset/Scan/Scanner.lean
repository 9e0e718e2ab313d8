import Valset.Scan.Follow
import Valset.Scan.History

/-!
# Scanning

A scan catches up with the history of the managers from its checkpoint to the head of the chain and
then follows the events that arrive. The subscriptions are made before the head is asked for, so
that every block behind the head reaches them. The events of the past come window by window; the
checkpoint moves to the end of a window once all events of the window have been written.
-/

namespace Valset
namespace Scan

/-! ## Catching up with history -/

/-- What is done for the events of a window that ends with a given block. -/
def windowActions (last : Nat) (events : List LiveEvent) : List ScanAction :=
  events.map (fun live => .write (EventRecord.ofEvent? live.event live.log)) ++
    [.flush, .advance last]

/-- Writes the events of one window. -/
def backfillWindow (addresses : List Address) (window : Nat × Nat) : Scanning Unit := do
  let events ← (ofOperation (fetchEvents addresses window.1 window.2)).scanning
  performAll (windowActions window.2 events)

/-- Writes the events from one block to another. -/
def backfill (addresses : List Address) (first last : Nat) : Scanning Unit :=
  (blockWindows first last pageSize).forM (backfillWindow addresses)

/-! ## Scans -/

/-- What a scan is asked to do. -/
structure ScanOptions where
  addresses : List Address
  startBlock : Nat
  checkpoint : String
  resetCheckpoint : Bool

/-- Whether a delivered event concerns a scan from a given block on. -/
def concerns (first : Nat) (live : LiveEvent) : Bool :=
  live.removed || first ≤ live.block

/-- The events that delivered logs bring to a scan from a given block on. -/
def delivered (first : Nat) (logs : List Log) : List LiveEvent :=
  (logs.filterMap LiveEvent.ofLog?).filter (concerns first)

/-- Asks a node a question of the scan itself. -/
def askNode {α : Type} (question : NodeQuestion)
    (asResult : Except NodeError question.Reply → Except NodeError α) : ScanProgram α :=
  askOr (.node question) fun reply => (asResult reply).mapError .provider

/-- The error of a connection or a subscription. -/
def connectionError (cause : NodeError) : ScanError :=
  .manager (.ofCall (.ofProviderError cause))

/-- Subscribes to the events of a contract. -/
def subscribe (address : Address) : ScanProgram Unit :=
  askOr (.subscribe address) fun reply => Except.mapError connectionError reply

/-- The checkpoint that a scan starts with. -/
def openCheckpoint (options : ScanOptions) (chain : Nat) : ScanProgram Checkpoint :=
  if options.resetCheckpoint then return .empty options.checkpoint chain
  else askOr (.load options.checkpoint chain) fun reply => Except.mapError .file reply

/-- Catches up and follows, once a checkpoint is there. -/
def scanFrom (options : ScanOptions) : Scanning Nat := do
  let first := (← get).resumeFrom options.startBlock
  (options.addresses.forM subscribe).scanning
  let head : UInt64 ← (askNode .blockNumber fun reply => reply).scanning
  backfill options.addresses first head.toNat
  let logs : List Log ← (ask .deliveries).scanning
  follow head.toNat (delivered first logs)

/-- Scans; gives the last block in which an event was seen. -/
def scan (options : ScanOptions) : ScanProgram Nat := do
  if options.addresses.isEmpty then throw .noAddresses
  askOr .connect fun reply => Except.mapError connectionError reply
  let chain : UInt64 ← askNode .chainId fun reply => reply
  let checkpoint ← openCheckpoint options chain.toNat
  ExceptT.mk (do
    let (result, _) ← (scanFrom options).run.run checkpoint
    return result)

end Scan
end Valset
