import Valset.Event.Record
import Valset.Manager.Operation
import Valset.Scan.Checkpoint

/-!
# History of events

The events of the managers in a range of blocks, as a node remembers them. The range is looked at in
windows of a bounded size.
-/

namespace Valset.Scan

/-- How many blocks one question for logs covers. -/
def pageSize : Nat :=
  50000

/-- The ranges of at most `size` blocks that cover the blocks from `first` to `last`. -/
def blockWindows (first last size : Nat) : List (Nat × Nat) :=
  if _h : first ≤ last ∧ 0 < size then
    (first, min last (blockAfter first (size - 1))) :: blockWindows (first + size) last size
  else []
termination_by last + 1 - first

/-- The logs that contracts emitted in a range of blocks. -/
def logsOf (addresses : List Address) (window : Nat × Nat) : LogFilter where
  addresses := some addresses
  topics := []
  fromBlock := some (UInt64.ofNat window.1)
  toBlock := some (UInt64.ofNat window.2)

/-- The event in a log of the history. A log that is no event of the managers counts as none, and
one that was taken back is no longer part of the history. -/
def historicEvent? (log : Log) : Option LiveEvent :=
  (LiveEvent.ofLog? log).filter fun live => !live.removed

/-- The events that contracts emitted in one window. -/
def fetchWindow (addresses : List Address) (window : Nat × Nat) : Operation (List LiveEvent) := do
  match ← Operation.ask (.logs (logsOf addresses window)) with
  | .error cause => throw (.logQuery cause)
  | .ok (logs : List Log) => return logs.filterMap historicEvent?

/-- The events that contracts emitted from one block to another, asked for window by window. -/
def fetchEvents (addresses : List Address) (first last : Nat) : Operation (List LiveEvent) := do
  let pages ← (blockWindows first last pageSize).mapM (fetchWindow addresses)
  return pages.flatten

end Valset.Scan
