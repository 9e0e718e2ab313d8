import Valset.Bytes

/-!
# Transactions and their logs

What is sent to a contract in order to change the chain, and what a node tells about the events of
transactions.
-/

namespace Valset

/-- Storage slots of a contract that a transaction announces. -/
structure AccessEntry where
  address : Address
  storageKeys : List Hash32
deriving DecidableEq

/-- A call of a contract that is to change the chain. -/
structure Transaction where
  target : Address
  data : Bytes
  value : U256 := 0
  accessList : List AccessEntry := []
deriving DecidableEq

/-! ## Logs and receipts -/

/-- One log of a transaction and where it stands in the chain. A removed log is one that a
reorganisation of the chain took back. -/
structure Log where
  address : Address
  topics : List Hash32
  data : Bytes
  blockNumber : UInt64
  blockHash : Hash32
  transactionHash : Hash32
  logIndex : U256
  removed : Bool
deriving DecidableEq

/-- The outcome of a transaction that was included in a block. -/
structure Receipt where
  transactionHash : Hash32
  status : Option UInt64
  logs : List Log
deriving DecidableEq

/-- Whether the transaction failed. A receipt without status does not say so. -/
def Receipt.reverted (receipt : Receipt) : Bool :=
  receipt.status == some 0

/-- Which logs are asked for: those of one of the addresses if any are named, with the given first
topics, in a range of blocks. -/
structure LogFilter where
  addresses : Option (List Address)
  topics : List Hash32
  fromBlock : Option UInt64
  toBlock : Option UInt64
deriving DecidableEq

end Valset
