import Valset.Error
import Valset.Proofs.Contract.RoundTrip

/-!
# What the contracts hold

The codes of the statuses, and the tuples in which a contract gives the state of a validator or a
delegation. A state with a known status comes from exactly one tuple, and a tuple without such a
state has a code beyond those of the statuses.
-/

namespace Valset

/-! ## Codes of statuses -/

namespace StatusKind

/-- How many statuses there are. Their codes are the numbers below. -/
def count : StatusKind → Nat
  | validator => 6
  | delegator => 4

end StatusKind

namespace ValidatorStatus

/-- The code of a status. -/
def code : ValidatorStatus → UInt8
  | unknown => 0
  | pendingAdded => 1
  | active => 2
  | pendingRemoved => 3
  | completed => 4
  | invalidated => 5

theorem toNat_code_names :
    ∀ index : Fin names.length, names[index].2.code.toNat = index := by
  decide

/-- The status of a code is the one that has it. -/
theorem ofCode?_eq_some_iff
    {code : UInt8}
    {status : ValidatorStatus} :
    ofCode? code = some status ↔ code = status.code := by
  constructor
  · intro meant
    obtain ⟨entry, found, rfl⟩ := Option.map_eq_some_iff.mp meant
    obtain ⟨inside, rfl⟩ := List.getElem?_eq_some_iff.mp found
    exact UInt8.toNat_inj.mp (toNat_code_names ⟨code.toNat, inside⟩).symm
  · rintro rfl
    cases status <;> rfl

/-- Codes beyond the statuses stand for none. -/
theorem ofCode?_eq_none_iff {code : UInt8} :
    ofCode? code = none ↔ StatusKind.validator.count ≤ code.toNat := by
  rw [ofCode?, Option.map_eq_none_iff, List.getElem?_eq_none_iff]
  rfl

end ValidatorStatus

namespace DelegatorStatus

/-- The code of a status. -/
def code : DelegatorStatus → UInt8
  | unknown => 0
  | pendingAdded => 1
  | active => 2
  | pendingRemoved => 3

theorem toNat_code_names :
    ∀ index : Fin names.length, names[index].2.code.toNat = index := by
  decide

theorem ofCode?_eq_some_iff
    {code : UInt8}
    {status : DelegatorStatus} :
    ofCode? code = some status ↔ code = status.code := by
  constructor
  · intro meant
    obtain ⟨entry, found, rfl⟩ := Option.map_eq_some_iff.mp meant
    obtain ⟨inside, rfl⟩ := List.getElem?_eq_some_iff.mp found
    exact UInt8.toNat_inj.mp (toNat_code_names ⟨code.toNat, inside⟩).symm
  · rintro rfl
    cases status <;> rfl

theorem ofCode?_eq_none_iff {code : UInt8} :
    ofCode? code = none ↔ StatusKind.delegator.count ≤ code.toNat := by
  rw [ofCode?, Option.map_eq_none_iff, List.getElem?_eq_none_iff]
  rfl

end DelegatorStatus

/-! ## Tuples -/

open AbiValue

namespace RawValidator

/-- A validator as a tuple. -/
def toAbi (raw : RawValidator) : AbiValue :=
  .tuple [
    .uint (BitVec.ofNat 256 raw.status.toNat),
    .bytes raw.nodeId,
    .ofUInt64 raw.startingWeight,
    .ofUInt64 raw.sentNonce,
    .ofUInt64 raw.receivedNonce,
    .ofUInt64 raw.weight,
    .ofUInt64 raw.startTime,
    .ofUInt64 raw.endTime]

/-- A validator with the code of its status. -/
def ofInfo (info : ValidatorInfo) : RawValidator where
  status := info.status.code
  nodeId := info.nodeId
  startingWeight := info.startingWeight
  sentNonce := info.sentNonce
  receivedNonce := info.receivedNonce
  weight := info.weight
  startTime := info.startTime
  endTime := info.endTime

theorem admits_toAbi (raw : RawValidator) : abiType.Admits raw.toAbi :=
  .tuple (List.cons_ne_nil _ _)
    (.cons (admits_ofUInt8 _) (.cons (.bytes _) (.cons (admits_ofUInt64 _)
      (.cons (admits_ofUInt64 _) (.cons (admits_ofUInt64 _) (.cons (admits_ofUInt64 _)
        (.cons (admits_ofUInt64 _) (.cons (admits_ofUInt64 _) .nil))))))))

@[simp] theorem ofAbi?_toAbi (raw : RawValidator) : ofAbi? raw.toAbi = some raw := by
  simp [ofAbi?, toAbi, bytes?]

/-- A validator is understood if it is held with one of the known statuses. -/
theorem info?_eq_some_iff
    {raw : RawValidator}
    {info : ValidatorInfo} :
    raw.info? = some info ↔ raw = ofInfo info := by
  constructor
  · intro meant
    obtain ⟨status, found, result⟩ := Option.bind_eq_some_iff.mp meant
    obtain rfl := Option.some.inj result
    rw [ofInfo, ← ValidatorStatus.ofCode?_eq_some_iff.mp found]
  · rintro rfl
    have found : ValidatorStatus.ofCode? (ofInfo info).status = some info.status :=
      ValidatorStatus.ofCode?_eq_some_iff.mpr rfl
    rw [info?, found]
    rfl

/-- A validator is not understood if its status is beyond the known ones. -/
theorem info?_eq_none_iff {raw : RawValidator} :
    raw.info? = none ↔ StatusKind.validator.count ≤ raw.status.toNat := by
  rw [← ValidatorStatus.ofCode?_eq_none_iff, info?]
  cases ValidatorStatus.ofCode? raw.status <;> simp

end RawValidator

namespace RawDelegator

/-- A delegation as a tuple. -/
def toAbi (raw : RawDelegator) : AbiValue :=
  .tuple [
    .uint (BitVec.ofNat 256 raw.status.toNat),
    .address raw.owner,
    .ofFixed raw.validationId.hash,
    .ofUInt64 raw.weight,
    .ofUInt64 raw.startTime,
    .ofUInt64 raw.startingNonce,
    .ofUInt64 raw.endingNonce]

/-- A delegation with the code of its status. -/
def ofInfo (info : DelegatorInfo) : RawDelegator where
  status := info.status.code
  owner := info.owner
  validationId := info.validationId
  weight := info.weight
  startTime := info.startTime
  startingNonce := info.startingNonce
  endingNonce := info.endingNonce

theorem admits_toAbi (raw : RawDelegator) : abiType.Admits raw.toAbi :=
  .tuple (List.cons_ne_nil _ _)
    (.cons (admits_ofUInt8 _) (.cons (.address _) (.cons (admits_ofHash _)
      (.cons (admits_ofUInt64 _) (.cons (admits_ofUInt64 _) (.cons (admits_ofUInt64 _)
        (.cons (admits_ofUInt64 _) .nil)))))))

@[simp] theorem ofAbi?_toAbi (raw : RawDelegator) : ofAbi? raw.toAbi = some raw := by
  simp [ofAbi?, toAbi, address?]

/-- A delegator is understood if it is held with one of the known statuses. -/
theorem info?_eq_some_iff
    {raw : RawDelegator}
    {info : DelegatorInfo} :
    raw.info? = some info ↔ raw = ofInfo info := by
  constructor
  · intro meant
    obtain ⟨status, found, result⟩ := Option.bind_eq_some_iff.mp meant
    obtain rfl := Option.some.inj result
    rw [ofInfo, ← DelegatorStatus.ofCode?_eq_some_iff.mp found]
  · rintro rfl
    have found : DelegatorStatus.ofCode? (ofInfo info).status = some info.status :=
      DelegatorStatus.ofCode?_eq_some_iff.mpr rfl
    rw [info?, found]
    rfl

/-- A delegator is not understood if its status is beyond the known ones. -/
theorem info?_eq_none_iff {raw : RawDelegator} :
    raw.info? = none ↔ StatusKind.delegator.count ≤ raw.status.toNat := by
  rw [← DelegatorStatus.ofCode?_eq_none_iff, info?]
  cases DelegatorStatus.ofCode? raw.status <;> simp

end RawDelegator

namespace StakingValidatorInfo

/-- What a staking manager knows about a validator, as a tuple. -/
def toAbi (info : StakingValidatorInfo) : AbiValue :=
  .tuple [
    .address info.owner,
    .ofUInt16 info.delegationFeeBips,
    .ofUInt64 info.minStakeDuration,
    .ofUInt64 info.uptimeSeconds]

theorem admits_toAbi (info : StakingValidatorInfo) : abiType.Admits info.toAbi :=
  .tuple (List.cons_ne_nil _ _)
    (.cons (.address _) (.cons (admits_ofUInt16 _) (.cons (admits_ofUInt64 _)
      (.cons (admits_ofUInt64 _) .nil))))

@[simp] theorem ofAbi?_toAbi (info : StakingValidatorInfo) : ofAbi? info.toAbi = some info := by
  simp [ofAbi?, toAbi, address?]

end StakingValidatorInfo

end Valset
