import Mathlib.Data.List.Sort
import Valset.Message.Owner
import Valset.Proofs.Bytes
import Valset.Proofs.Except

/-!
# Valid owners and their normal form

Addresses are ordered as numbers. Comparing neighbours is therefore enough to know that each address
is below all later ones, and a set of addresses has one ascending list. Sorting finds that list
whatever the order was before.
-/

namespace Valset

namespace Owner

/-! ## Ascending addresses -/

/-- Comparing neighbours compares every two addresses. -/
theorem ascending_iff_pairwise {addresses : List Address} :
    ascending addresses ↔ addresses.Pairwise fun earlier later => earlier.lt later := by
  have transitive : IsTrans Address fun earlier later => earlier.lt later :=
    ⟨fun _ _ _ => by simp only [FixedBytes.lt_iff_toNat_lt]; omega⟩
  rw [← List.isChain_iff_pairwise]
  fun_induction ascending addresses with
  | case1 first second rest inductionHypothesis => simp [inductionHypothesis]
  | case2 addresses short =>
      rcases addresses with _ | ⟨first, _ | ⟨second, rest⟩⟩
      · simp
      · simp
      · exact absurd rfl (short first second rest)

/-! ## Sorting -/

theorem insertAddress_eq_orderedInsert
    (address : Address)
    (addresses : List Address) :
    insertAddress address addresses =
      addresses.orderedInsert (fun one other => one.lt other) address := by
  induction addresses with
  | nil => rfl
  | cons first rest inductionHypothesis =>
      rw [insertAddress, List.orderedInsert, inductionHypothesis]

theorem sortAddresses_eq_insertionSort (addresses : List Address) :
    sortAddresses addresses = addresses.insertionSort fun one other => one.lt other := by
  rw [sortAddresses, List.insertionSort]
  congr 1
  funext address sorted
  exact insertAddress_eq_orderedInsert address sorted

/-- Inserting an address adds it and nothing else. -/
theorem insertAddress_perm
    (address : Address)
    (addresses : List Address) :
    (insertAddress address addresses).Perm (address :: addresses) := by
  rw [insertAddress_eq_orderedInsert]
  exact List.perm_orderedInsert _ _ _

/-- Sorting addresses adds and loses none. -/
theorem sortAddresses_perm (addresses : List Address) :
    (sortAddresses addresses).Perm addresses := by
  rw [sortAddresses_eq_insertionSort]
  exact List.perm_insertionSort _ _

/-- Addresses in ascending order, among which there may be equal ones. -/
def Sorted (addresses : List Address) : Prop :=
  addresses.Pairwise fun earlier later => earlier.toNat ≤ later.toNat

/-- Inserting an address keeps the order. -/
theorem Sorted.insertAddress
    {addresses : List Address}
    (sorted : Sorted addresses)
    (address : Address) :
    Sorted (insertAddress address addresses) := by
  induction addresses with
  | nil => exact List.pairwise_singleton _ _
  | cons first rest inductionHypothesis =>
      obtain ⟨least, sortedRest⟩ := List.pairwise_cons.mp sorted
      rw [Owner.insertAddress]
      split
      · next below =>
        have below := FixedBytes.lt_iff_toNat_lt.mp below
        refine List.pairwise_cons.mpr ⟨?_, sorted⟩
        intro other present
        rcases List.mem_cons.mp present with rfl | inRest
        · omega
        · have := least other inRest
          omega
      · next notBelow =>
        rw [FixedBytes.lt_iff_toNat_lt] at notBelow
        refine List.pairwise_cons.mpr ⟨?_, inductionHypothesis sortedRest⟩
        intro other present
        rcases List.mem_cons.mp ((insertAddress_perm address rest).mem_iff.mp present) with
          rfl | inRest
        · omega
        · exact least other inRest

/-- Sorted addresses are in order. -/
theorem sorted_sortAddresses (addresses : List Address) : Sorted (sortAddresses addresses) := by
  induction addresses with
  | nil => exact List.Pairwise.nil
  | cons address addresses inductionHypothesis => exact inductionHypothesis.insertAddress address

/-- Addresses have one order in which they are sorted. -/
theorem Sorted.eq_of_perm
    {addresses others : List Address}
    (sorted : Sorted addresses)
    (sortedOthers : Sorted others)
    (same : addresses.Perm others) :
    addresses = others :=
  same.eq_of_pairwise
    (fun _ _ _ _ below above => FixedBytes.toNat_injective (Nat.le_antisymm below above))
    sorted sortedOthers

/-- The order in which addresses are given does not matter once they are sorted. -/
theorem sortAddresses_eq_of_perm
    {addresses others : List Address}
    (same : addresses.Perm others) :
    sortAddresses addresses = sortAddresses others :=
  (sorted_sortAddresses addresses).eq_of_perm (sorted_sortAddresses others)
    (((sortAddresses_perm addresses).trans same).trans (sortAddresses_perm others).symm)

/-- Sorted addresses are strictly ascending if no two of them are the same. -/
theorem Sorted.ascending_iff_nodup
    {addresses : List Address}
    (sorted : Sorted addresses) :
    ascending addresses ↔ addresses.Nodup := by
  rw [ascending_iff_pairwise]
  constructor
  · refine List.Pairwise.imp fun below same => ?_
    rw [same, FixedBytes.lt_iff_toNat_lt] at below
    exact Nat.lt_irrefl _ below
  · refine List.Pairwise.imp₂ (fun _ _ below different => ?_) sorted
    exact FixedBytes.lt_iff_toNat_lt.mpr
      (Nat.lt_of_le_of_ne below (FixedBytes.toNat_injective.ne different))

/-- Addresses in ascending order are sorted as they are. -/
theorem sortAddresses_eq_self
    {addresses : List Address}
    (ascends : ascending addresses) :
    sortAddresses addresses = addresses := by
  have sorted : Sorted addresses :=
    (ascending_iff_pairwise.mp ascends).imp fun below =>
      Nat.le_of_lt (FixedBytes.lt_iff_toNat_lt.mp below)
  exact (sorted_sortAddresses addresses).eq_of_perm sorted (sortAddresses_perm addresses)

/-! ## Validity -/

/-- An owner that can act: the addresses that are needed are at least one and at most all, or there
are no addresses and none is needed. -/
def Quorate (owner : Owner) : Prop :=
  (owner.addresses.length = 0 ∧ owner.threshold.toNat = 0) ∨
    (1 ≤ owner.threshold.toNat ∧ owner.threshold.toNat ≤ owner.addresses.length)

instance (owner : Owner) : Decidable owner.Quorate :=
  inferInstanceAs (Decidable ((_ ∧ _) ∨ (_ ∧ _)))

theorem thresholdFits_iff_quorate (owner : Owner) :
    thresholdFits owner.threshold owner.addresses.length ↔ owner.Quorate := by
  have nonzero : owner.threshold ≠ 0 ↔ owner.threshold.toNat ≠ 0 :=
    not_congr UInt32.toNat_inj.symm
  rw [thresholdFits, Quorate, Bool.and_eq_true, Bool.or_eq_true, decide_eq_true_iff, bne_iff_ne,
    beq_iff_eq, nonzero]
  omega

/-- The threshold is judged first and the order of the addresses second. -/
theorem validate_eq_ite (owner : Owner) :
    owner.validate =
      if owner.Quorate then
        if ascending owner.addresses then .ok () else .error .ownerAddressesNotSorted
      else .error (.invalidOwnerThreshold owner.threshold owner.addresses.length) := by
  have sameTest := owner.thresholdFits_iff_quorate
  rw [validate]
  by_cases quorate : owner.Quorate
  · rw [if_neg (not_not.mpr (sameTest.mpr quorate)), if_pos quorate, ite_not]
  · rw [if_pos (mt sameTest.mp quorate), if_neg quorate]

/-- A valid owner has a threshold that can be reached and addresses in strictly ascending order. -/
theorem validate_eq_ok_iff {owner : Owner} :
    owner.validate = .ok () ↔
      owner.Quorate ∧ owner.addresses.Pairwise fun earlier later => earlier.lt later := by
  rw [validate_eq_ite, ← ascending_iff_pairwise]
  split_ifs with quorate ordered
  · simp [quorate, ordered]
  · simp [ordered]
  · simp [quorate]

/-- An owner with its addresses in ascending order. -/
def inOrder (owner : Owner) : Owner :=
  { owner with addresses := sortAddresses owner.addresses }

theorem normalized_eq_ok_iff {owner normal : Owner} :
    owner.normalized = .ok normal ↔ owner.inOrder.validate = .ok () ∧ normal = owner.inOrder := by
  change (owner.inOrder.validate >>= fun _ => .ok owner.inOrder) = .ok normal ↔ _
  rw [bind_eq_ok_iff]
  constructor
  · rintro ⟨⟨⟩, valid, same⟩
    exact ⟨valid, (Except.ok.inj same).symm⟩
  · rintro ⟨valid, rfl⟩
    exact ⟨(), valid, rfl⟩

theorem inOrder_quorate_iff (owner : Owner) : owner.inOrder.Quorate ↔ owner.Quorate := by
  rw [Quorate, Quorate, inOrder, (sortAddresses_perm owner.addresses).length_eq]

/-- An owner is normalised if its addresses are pairwise different and its threshold fits them. The
result is valid, has the same threshold and the same addresses in strictly ascending order, and is
normal already. What is normalised, or why it is not, does not depend on the order of the addresses.
An owner is valid as it is if its threshold fits and each address is below all later ones. -/
theorem normalized_canonical (owner : Owner) :
    ((∃ normal, owner.normalized = .ok normal) ↔ owner.addresses.Nodup ∧ owner.Quorate) ∧
      (∀ normal, owner.normalized = .ok normal →
        normal.threshold = owner.threshold ∧ normal.addresses.Perm owner.addresses ∧
          (normal.addresses.Pairwise fun earlier later => earlier.lt later) ∧
          normal.validate = .ok () ∧ normal.normalized = .ok normal) ∧
      (∀ addresses : List Address, addresses.Perm owner.addresses →
        { owner with addresses }.normalized = owner.normalized) ∧
      (owner.validate = .ok () ↔
        owner.Quorate ∧ owner.addresses.Pairwise fun earlier later => earlier.lt later) := by
  refine ⟨?_, ?_, ?_, validate_eq_ok_iff⟩
  · have sorted := sorted_sortAddresses owner.addresses
    simp only [normalized_eq_ok_iff, exists_and_left, exists_eq, and_true]
    rw [validate_eq_ok_iff, inOrder_quorate_iff, ← ascending_iff_pairwise, and_comm]
    exact and_congr_left fun _ =>
      sorted.ascending_iff_nodup.trans (sortAddresses_perm owner.addresses).nodup_iff
  · intro normal found
    obtain ⟨valid, rfl⟩ := normalized_eq_ok_iff.mp found
    obtain ⟨_, ascends⟩ := validate_eq_ok_iff.mp valid
    have settled : owner.inOrder.inOrder = owner.inOrder := by
      have same := sortAddresses_eq_self (ascending_iff_pairwise.mpr ascends)
      rw [inOrder, same]
    have validAgain : owner.inOrder.inOrder.validate = .ok () := by
      rw [settled]
      exact valid
    exact ⟨rfl, sortAddresses_perm owner.addresses, ascends, valid,
      normalized_eq_ok_iff.mpr ⟨validAgain, settled.symm⟩⟩
  · intro addresses same
    rw [normalized, normalized, sortAddresses_eq_of_perm same]

/-- Two addresses of which one must sign, the higher one first. -/
def swapped : Owner :=
  ⟨1, [.ofNat 2, .ofNat 1]⟩

/-- The swapped owner is invalid at first and valid once it is normalized. -/
theorem swapped_normalized :
    swapped.validate = .error .ownerAddressesNotSorted ∧
      swapped.normalized = .ok ⟨1, [.ofNat 1, .ofNat 2]⟩ ∧
        (⟨1, [.ofNat 1, .ofNat 2]⟩ : Owner).validate = .ok () := by
  have normal : swapped.normalized = .ok ⟨1, [.ofNat 1, .ofNat 2]⟩ := by decide
  obtain ⟨_, kept, _⟩ := normalized_canonical swapped
  exact ⟨by decide, normal, (kept _ normal).2.2.2.1⟩

end Owner
end Valset
