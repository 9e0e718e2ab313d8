import Valset.Files

/-!
# Checkpoints

How far the events of a chain have been dealt with: the last block that is complete, in memory and
in a file. The file also names the chain, and one that belongs to another chain counts as none.
-/

namespace Valset.Scan

/-- The block some blocks further on. The numbers of blocks have 64 bits, and what a sum has beyond
them is lost. -/
def blockAfter (block count : Nat) : Nat :=
  (block + count) % UInt64.size

/-- The last complete block of a chain, and the file that remembers it. -/
structure Checkpoint where
  path : String
  chain : Nat
  block : Option Nat
deriving DecidableEq, Repr

/-- What the file of a checkpoint says. -/
structure StoredBlock where
  chain : Nat
  block : Nat
deriving DecidableEq, Repr

namespace StoredBlock

/-- The content of the file. -/
def toJson (stored : StoredBlock) : Json :=
  .object [("chainId", .ofNat stored.chain), ("block", .ofNat stored.block)]

/-- Reads the content of the file. -/
def ofJson? : Json.Reader StoredBlock := fun json => do
  let source ← Json.source? ["chainId", "block"] json
  return {
    chain := (← source.required "chainId" Json.readUInt64).toNat
    block := (← source.required "block" Json.readUInt64).toNat
  }

end StoredBlock

namespace Checkpoint

/-- A checkpoint before the first block. -/
def empty (path : String) (chain : Nat) : Checkpoint :=
  ⟨path, chain, none⟩

/-- The checkpoint that a stored block stands for. -/
def ofStored (path : String) (chain : Nat) (stored : Option StoredBlock) : Checkpoint :=
  match stored with
  | some stored =>
    if stored.chain = chain then ⟨path, chain, some stored.block⟩ else empty path chain
  | none => empty path chain

/-- Reads a checkpoint from its file, if the file is there. -/
def load (path : String) (chain : Nat) : FileProgram Checkpoint := do
  return ofStored path chain (← Files.readJsonIfThere path StoredBlock.ofJson?)

/-- Writes a block into the file of a checkpoint. -/
def store (checkpoint : Checkpoint) (block : Nat) : FileProgram Unit :=
  Files.writeJson checkpoint.path (StoredBlock.toJson ⟨checkpoint.chain, block⟩)

/-- The first block that is still to be dealt with, none before a given one. -/
def resumeFrom (checkpoint : Checkpoint) (start : Nat) : Nat :=
  match checkpoint.block with
  | some block => max start (blockAfter block 1)
  | none => start

/-- Whether a block is already complete. -/
def covers (checkpoint : Checkpoint) (block : Nat) : Bool :=
  match checkpoint.block with
  | some current => block ≤ current
  | none => false

/-- Declares a block complete, by storing it in some way and then remembering it. Nothing happens
for a block that is complete already. -/
def advance {m : Type → Type} [Monad m] (store : Checkpoint → Nat → m Unit)
    (checkpoint : Checkpoint) (block : Nat) : m Checkpoint := do
  if checkpoint.covers block then return checkpoint
  store checkpoint block
  return { checkpoint with block := some block }

end Checkpoint
end Valset.Scan
