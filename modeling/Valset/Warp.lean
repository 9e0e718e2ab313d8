import Valset.Chain.Transaction
import Valset.Validator

/-!
# Signed messages in transactions

Signed messages of the P-Chain travel in the access list of a transaction, one entry for each
message. A contract reads them by their position.
-/

namespace Valset
namespace Warp

/-- The contract under whose address messages are announced. -/
def precompile : Address :=
  FixedBytes.fit (2 :: Bytes.zeros 18 ++ [5])

/-- The byte that marks the end of a message. -/
def endByte : UInt8 := 0xff

/-- A message with its end marked, filled up with zeros to whole slots. -/
def padded (message : Bytes) : Bytes :=
  let marked := message ++ [endByte]
  marked ++ Bytes.zeros ((32 - marked.length % 32) % 32)

/-- The storage slots that hold a message. -/
def slots (message : Bytes) : List Hash32 :=
  (Bytes.chunks 32 (padded message)).map FixedBytes.fit

/-- The entry of the access list for a message. -/
def entry (message : Bytes) : AccessEntry :=
  ⟨precompile, slots message⟩

/-- A transaction that carries messages, one of which the contract reads by its index. -/
def attach (transaction : Transaction) (messages : List Bytes) (index : UInt32) :
    Except PreflightError Transaction :=
  if index.toNat < messages.length then
    .ok { transaction with accessList := messages.map entry }
  else .error (.noWarpMessage index messages.length)

end Warp
end Valset
