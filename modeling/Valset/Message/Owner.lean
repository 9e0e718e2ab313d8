import Valset.Message.Packed

/-!
# Owners on the P-Chain

A set of addresses, a number of which must sign together. An owner is valid when the number fits the
set and the addresses stand in strictly ascending order.
-/

namespace Valset

/-- Addresses that may act together, and how many of them are needed. -/
structure Owner where
  threshold : UInt32
  addresses : List Address
deriving DecidableEq, Inhabited

namespace Owner

/-- Whether the threshold fits a number of addresses. -/
def thresholdFits (threshold : UInt32) (addresses : Nat) : Bool :=
  threshold.toNat ≤ addresses && (threshold != 0 || addresses == 0)

/-- Whether each address is below the next one. -/
def ascending : List Address → Bool
  | first :: second :: rest => first.lt second && ascending (second :: rest)
  | _ => true

/-- Checks the threshold, then the order of the addresses. -/
def validate (owner : Owner) : Except MessageError Unit :=
  if ¬ thresholdFits owner.threshold owner.addresses.length then
    .error (.invalidOwnerThreshold owner.threshold owner.addresses.length)
  else if ¬ ascending owner.addresses then .error .ownerAddressesNotSorted
  else .ok ()

/-- Puts an address into an ascending list, behind equal ones. -/
def insertAddress (address : Address) : List Address → List Address
  | [] => [address]
  | first :: rest =>
    if address.lt first then address :: first :: rest else first :: insertAddress address rest

/-- Addresses in ascending order. -/
def sortAddresses (addresses : List Address) : List Address :=
  addresses.foldr insertAddress []

/-- The owner with its addresses in ascending order, when that is valid. -/
def normalized (owner : Owner) : Except MessageError Owner := do
  let sorted := { owner with addresses := sortAddresses owner.addresses }
  sorted.validate
  return sorted

/-- The packed form: the threshold and the addresses behind their number. -/
def pack (owner : Owner) : Bytes :=
  Packed.u32 owner.threshold ++ Packed.count owner.addresses ++
    owner.addresses.flatMap (·.bytes)

/-- Reads a packed owner. -/
def unpack : Packed.Reading Owner := do
  let threshold ← Packed.takeU32
  let addresses ← Packed.takeList (Packed.takeFixed 20)
  return { threshold, addresses }

end Owner
end Valset
