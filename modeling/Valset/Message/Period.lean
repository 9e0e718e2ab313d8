import Valset.Message.Conversion
import Valset.Message.Owner

/-!
# Validation periods

The terms on which a validator is registered, as the P-Chain learns them.
-/

namespace Valset

/-- The terms of one validation. -/
structure ValidationPeriod where
  subnetId : SubnetId
  nodeId : Bytes
  blsPublicKey : Bytes
  registrationExpiry : UInt64
  remainingBalanceOwner : Owner
  disableOwner : Owner
  weight : UInt64
deriving DecidableEq

namespace ValidationPeriod

/-- The packed form of the fields. -/
def pack (period : ValidationPeriod) : Bytes :=
  period.subnetId.hash.bytes ++ Packed.counted period.nodeId ++ period.blsPublicKey ++
    Packed.u64 period.registrationExpiry ++ period.remainingBalanceOwner.pack ++
    period.disableOwner.pack ++ Packed.u64 period.weight

/-- Reads the fields. -/
def unpack : Packed.Reading ValidationPeriod := do
  let subnet ← Packed.takeFixed 32
  let nodeId ← Packed.takeCounted
  let blsPublicKey ← Packed.take blsPublicKeyLength
  let registrationExpiry ← Packed.takeU64
  let remainingBalanceOwner ← Owner.unpack
  let disableOwner ← Owner.unpack
  let weight ← Packed.takeU64
  return {
    subnetId := ⟨subnet⟩
    nodeId
    blsPublicKey
    registrationExpiry
    remainingBalanceOwner
    disableOwner
    weight
  }

end ValidationPeriod
end Valset
