import Valset.Scan.Dialogue

/-!
# Following events

What is done for the events that subscriptions deliver, one after the other. Events of blocks that
the history already covered are passed over, unless a reorganisation of the chain took back one of
those blocks. An event of a later block than all before completes the block in front of it. An event
that arrives late from an older block is still written, and one that arrives twice is dropped.
-/

namespace Valset
namespace Scan

/-- What tells events apart: their place in the chain, and whether they have been taken back. -/
structure EventIdentity where
  block : Nat
  blockHash : Hash32
  transactionHash : Hash32
  logIndex : U256
  removed : Bool
deriving DecidableEq

/-- The identity of an event. -/
def EventIdentity.ofLive (live : LiveEvent) : EventIdentity where
  block := live.block
  blockHash := live.log.blockHash
  transactionHash := live.log.transactionHash
  logIndex := live.log.logIndex
  removed := live.removed

/-- How far the events have been followed: blocks up to `skipThrough` are passed over, `lastBlock`
is the highest block so far, and `seen` holds the events of recent blocks. -/
structure Follow where
  skipThrough : Nat
  lastBlock : Nat
  seen : List EventIdentity

namespace Follow

/-- The beginning, when the history covered the blocks up to a given one. -/
def start (backfilled : Nat) : Follow :=
  ⟨backfilled, backfilled, []⟩

/-- The blocks that are passed over once an event has arrived. -/
def skipAfter (state : Follow) (live : LiveEvent) : Nat :=
  if live.removed then min state.skipThrough (live.block - 1) else state.skipThrough

/-- Whether an event is passed over. -/
def skips (state : Follow) (live : LiveEvent) : Bool :=
  !live.removed && live.block ≤ state.skipThrough

/-- Whether an event has arrived before. -/
def hasSeen (state : Follow) (live : LiveEvent) : Bool :=
  state.seen.contains (.ofLive live)

/-- Whether an event completes the blocks in front of its own. -/
def completes (state : Follow) (live : LiveEvent) : Bool :=
  !live.removed && state.lastBlock < live.block

/-- Goes on to a higher block; only its own events and those of the block in front of it stay in
memory. -/
def moveTo (state : Follow) (block : Nat) : Follow :=
  { state with
    lastBlock := block
    seen := state.seen.filter fun identity => block ≤ blockAfter identity.block 1 }

/-- What is done for an event, and what is remembered after it. -/
def step (state : Follow) (live : LiveEvent) : Follow × List ScanAction :=
  let skipThrough := state.skipAfter live
  if state.skips live then (state, [])
  else if state.hasSeen live then ({ state with skipThrough }, [])
  else
    let state := { state with skipThrough, seen := .ofLive live :: state.seen }
    let write := ScanAction.write (EventRecord.ofLive? live)
    if state.completes live then
      (state.moveTo live.block, [.flush, .advance (live.block - 1), write])
    else (state, [write])

/-- What is done for events, and what is remembered after them. -/
def run (state : Follow) : List LiveEvent → Follow × List ScanAction
  | [] => (state, [])
  | live :: rest =>
    let (state, actions) := state.step live
    let (state, further) := state.run rest
    (state, actions ++ further)

end Follow

/-- What is done for all events of subscriptions that end. -/
def followActions (backfilled : Nat) (events : List LiveEvent) : List ScanAction :=
  ((Follow.start backfilled).run events).2 ++ [.flush]

/-- Writes events until they end; gives the highest block seen. -/
def follow (backfilled : Nat) (events : List LiveEvent) : Scanning Nat := do
  performAll (followActions backfilled events)
  return ((Follow.start backfilled).run events).1.lastBlock

end Scan
end Valset
