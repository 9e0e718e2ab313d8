import Valset.Proofs.Message.Written

/-!
# Conversion data and their packed form

Packing fails on a public key of the wrong length and on nothing else. Otherwise conversion data
have one packed form, which is read back to them and to nothing else: the number of validators and
the length of each node id say where the next field begins. A conversion id is therefore the hash of
bytes that no other conversion data have.
-/

namespace Valset

open Packed

/-! ## Validators -/

namespace InitialValidator

/-- The fields of a validator one after the other. -/
def packedFields (validator : InitialValidator) : Bytes :=
  counted validator.nodeId ++ validator.blsPublicKey ++ u64 validator.weight

/-- A validator whose key has the right length. -/
def Keyed (validator : InitialValidator) : Prop :=
  validator.blsPublicKey.length = blsPublicKeyLength

instance (validator : InitialValidator) : Decidable validator.Keyed :=
  inferInstanceAs (Decidable (_ = _))

/-- A validator whose node id has a length that fits into four bytes. -/
def Countable (validator : InitialValidator) : Prop :=
  validator.nodeId.length < UInt32.size

instance (validator : InitialValidator) : Decidable validator.Countable :=
  inferInstanceAs (Decidable (_ < _))

/-- A validator is packed if its key has the right length. -/
theorem pack_eq_ite (validator : InitialValidator) :
    validator.pack =
      if validator.Keyed then .ok validator.packedFields else .error .invalidBlsPublicKey := by
  change (checkBlsPublicKey validator.blsPublicKey >>= fun _ => _) = _
  rw [checkBlsPublicKey]
  by_cases keyed : validator.Keyed
  · rw [if_pos keyed, if_pos (show validator.blsPublicKey.length = _ from keyed)]
    rfl
  · rw [if_neg keyed, if_neg (show ¬ validator.blsPublicKey.length = _ from keyed)]
    rfl

/-- Validators are packed one by one as long as each of them has a key of the right length. -/
theorem mapM_pack_eq_ite (validators : List InitialValidator) :
    validators.mapM pack =
      if ∀ validator ∈ validators, validator.Keyed then .ok (validators.map packedFields)
      else .error .invalidBlsPublicKey := by
  induction validators with
  | nil => rfl
  | cons validator validators inductionHypothesis =>
      rw [List.mapM_cons, inductionHypothesis, pack_eq_ite]
      by_cases keyed : validator.Keyed
      · by_cases others : ∀ other ∈ validators, other.Keyed
        · rw [if_pos keyed, if_pos others, if_pos (List.forall_mem_cons.mpr ⟨keyed, others⟩)]
          rfl
        · rw [if_pos keyed, if_neg others,
            if_neg fun all => others (List.forall_mem_cons.mp all).2]
          rfl
      · rw [if_neg keyed, if_neg fun all => keyed (List.forall_mem_cons.mp all).1]
        rfl

instance : Local unpack := by
  unfold unpack
  infer_instance

/-- What is read as a validator is its packed form. -/
@[simp] theorem reads_unpack_iff
    {bytes : Bytes}
    {validator : InitialValidator} :
    Reads unpack bytes validator ↔
      bytes = validator.packedFields ∧ (validator.Keyed ∧ validator.Countable) := by
  simp only [unpack, reads_bind_iff, reads_pure_iff, reads_takeCounted_iff, reads_take_iff,
    reads_takeU64_iff]
  constructor
  · rintro ⟨nodeId, _, _, rfl, ⟨rfl, countable⟩, key, _, _, rfl, ⟨rfl, keyed⟩, weight, _, _, rfl,
      rfl, rfl, rfl⟩
    exact ⟨by simp [packedFields], keyed, countable⟩
  · rintro ⟨rfl, keyed, countable⟩
    refine ⟨validator.nodeId, _, _, ?_, ⟨rfl, countable⟩, validator.blsPublicKey, _, _, rfl,
      ⟨rfl, keyed⟩, validator.weight, _, _, rfl, rfl, rfl, rfl⟩
    simp [packedFields]

end InitialValidator

/-! ## Conversion data -/

namespace ConversionData

/-- The fields of conversion data one after the other. -/
def packedFields (data : ConversionData) : Bytes :=
  u16 codecId ++ data.subnetId.hash.bytes ++ data.validatorManagerBlockchainId.hash.bytes ++
    u32 addressLength ++ data.validatorManagerAddress.bytes ++ count data.initialValidators ++
    data.initialValidators.flatMap InitialValidator.packedFields

/-- Conversion data in which every key has the right length. -/
def Keyed (data : ConversionData) : Prop :=
  ∀ validator ∈ data.initialValidators, validator.Keyed

instance (data : ConversionData) : Decidable data.Keyed :=
  inferInstanceAs (Decidable (∀ validator ∈ data.initialValidators, validator.Keyed))

/-- Conversion data whose validators can be counted in four bytes, as can the bytes of each node id.
-/
structure Countable (data : ConversionData) : Prop where
  validators : data.initialValidators.length < UInt32.size
  nodeIds : ∀ validator ∈ data.initialValidators, validator.Countable

/-- Conversion data is packed if all keys have the right length. -/
theorem pack_eq_ite (data : ConversionData) :
    data.pack = if data.Keyed then .ok data.packedFields else .error .invalidBlsPublicKey := by
  change (data.initialValidators.mapM InitialValidator.pack >>= fun _ => _) = _
  rw [InitialValidator.mapM_pack_eq_ite]
  by_cases keyed : data.Keyed
  · rw [if_pos keyed, if_pos (show ∀ validator ∈ data.initialValidators, _ from keyed)]
    change Except.ok _ = Except.ok _
    rw [packedFields, List.flatMap]
  · rw [if_neg keyed, if_neg (show ¬ ∀ validator ∈ data.initialValidators, _ from keyed)]
    rfl

theorem pack_eq_ok_iff
    {data : ConversionData}
    {packed : Bytes} :
    data.pack = .ok packed ↔ data.Keyed ∧ packed = data.packedFields := by
  rw [pack_eq_ite]
  by_cases keyed : data.Keyed <;> simp [keyed, eq_comm]

theorem pack_eq_error_iff
    {data : ConversionData}
    {cause : MessageError} :
    data.pack = .error cause ↔ ¬ data.Keyed ∧ cause = .invalidBlsPublicKey := by
  rw [pack_eq_ite]
  by_cases keyed : data.Keyed <;> simp [keyed, eq_comm]

/-! ### Reading -/

@[simp] theorem reads_takeCodecId_iff
    {bytes : Bytes}
    {done : Unit} :
    Reads takeCodecId bytes done ↔ bytes = u16 codecId := by
  simp [takeCodecId]

/-- Reads the length of an address, which must be the right one. -/
def takeAddressLength : Reading Unit := do
  let size ← takeU32
  if size ≠ addressLength then
    throw (.invalidMessageLength size addressLength)

instance : Local takeAddressLength := by
  unfold takeAddressLength
  infer_instance

@[simp] theorem reads_takeAddressLength_iff
    {bytes : Bytes}
    {done : Unit} :
    Reads takeAddressLength bytes done ↔ bytes = u32 addressLength := by
  simp [takeAddressLength]

/-- Reads conversion data, whatever follows them. -/
def body : Reading ConversionData := do
  takeCodecId
  let subnet ← takeFixed 32
  let blockchain ← takeFixed 32
  takeAddressLength
  let manager ← takeFixed 20
  let validators ← takeList InitialValidator.unpack
  return {
    subnetId := ⟨subnet⟩
    validatorManagerBlockchainId := ⟨blockchain⟩
    validatorManagerAddress := manager
    initialValidators := validators
  }

instance : Local body := by
  unfold body
  infer_instance

theorem fields_eq_body_finish :
    fields = (do
      let data ← body
      finish
      return data) := by
  simp only [fields, body, takeAddressLength, bind_assoc]
  refine bind_congr fun _ => bind_congr fun subnet => bind_congr fun blockchain =>
    bind_congr fun size => ?_
  split <;> simp only [pure_bind]

/-- What is read as conversion data is its packed form. -/
@[simp] theorem reads_body_iff
    {bytes : Bytes}
    {data : ConversionData} :
    Reads body bytes data ↔ bytes = data.packedFields ∧ data.Keyed ∧ data.Countable := by
  have validators_iff (bytes : Bytes) (validators : List InitialValidator) :
      Reads (takeList InitialValidator.unpack) bytes validators ↔
        bytes = count validators ++ validators.flatMap InitialValidator.packedFields ∧
          validators.length < UInt32.size ∧
            ∀ validator ∈ validators, validator.Keyed ∧ validator.Countable :=
    reads_takeList_iff fun _ _ => InitialValidator.reads_unpack_iff
  simp only [body, reads_bind_iff, reads_pure_iff, reads_takeFixed_iff, reads_takeCodecId_iff,
    reads_takeAddressLength_iff, validators_iff]
  constructor
  · rintro ⟨_, _, _, rfl, rfl, subnet, _, _, rfl, rfl, blockchain, _, _, rfl, rfl, _, _, _, rfl,
      rfl, manager, _, _, rfl, rfl, validators, _, _, rfl, ⟨rfl, few, allowed⟩, rfl, rfl⟩
    exact ⟨by simp [packedFields], fun validator present => (allowed validator present).1, few,
      fun validator present => (allowed validator present).2⟩
  · rintro ⟨rfl, keyed, countable⟩
    have allowed : ∀ validator ∈ data.initialValidators, validator.Keyed ∧ validator.Countable :=
      fun validator present => ⟨keyed validator present, countable.nodeIds validator present⟩
    refine ⟨(), _, _, ?_, rfl, data.subnetId.hash, _, _, rfl, rfl,
      data.validatorManagerBlockchainId.hash, _, _, rfl, rfl, (), _, _, rfl, rfl,
      data.validatorManagerAddress, _, _, rfl, rfl, data.initialValidators, _, _, rfl,
      ⟨rfl, countable.validators, allowed⟩, rfl, rfl⟩
    simp [packedFields]

/-- Conversion data are read from their packed form and from nothing else. -/
theorem unpack_eq_ok_iff
    {input : Bytes}
    {data : ConversionData} :
    unpack input = .ok data ↔ input = data.packedFields ∧ data.Keyed ∧ data.Countable := by
  rw [unpack, fields_eq_body_finish, read_finish_eq_ok_iff, reads_body_iff]

/-! ### Both directions -/

/-- What is packed is read back. -/
theorem unpack_of_pack
    {data : ConversionData}
    {packed : Bytes}
    (countable : data.Countable)
    (written : data.pack = .ok packed) :
    unpack packed = .ok data := by
  obtain ⟨keyed, rfl⟩ := pack_eq_ok_iff.mp written
  exact unpack_eq_ok_iff.mpr ⟨rfl, keyed, countable⟩

/-- The identifier is the hash of what is packed. -/
theorem conversionId_eq_ok_iff
    {data : ConversionData}
    {id : ConversionId} :
    data.conversionId = .ok id ↔ ∃ packed, data.pack = .ok packed ∧ id = ⟨Sha256.hash packed⟩ := by
  change (data.pack >>= fun packed => .ok ⟨Sha256.hash packed⟩) = .ok id ↔ _
  cases packing : data.pack with
  | error cause => simp [bind, Except.bind]
  | ok packed => simp [bind, Except.bind, eq_comm]

/-- Packing fails exactly on a key of the wrong length. Countable conversion data are read from the
bytes that they are packed to and from no others, so that the bytes behind a conversion id are those
of one validator set. -/
theorem unpack_eq_ok_iff_pack_eq_ok (data : ConversionData) :
    ((∃ cause, data.pack = .error cause) ↔
        ∃ validator ∈ data.initialValidators,
          validator.blsPublicKey.length ≠ blsPublicKeyLength) ∧
      (∀ cause, data.pack = .error cause → cause = .invalidBlsPublicKey) ∧
      (∀ id, data.conversionId = .ok id ↔
        ∃ packed, data.pack = .ok packed ∧ id = ⟨Sha256.hash packed⟩) ∧
      (data.Countable →
        (∀ input, unpack input = .ok data ↔ data.pack = .ok input) ∧
          ∀ other : ConversionData, other.Countable → ∀ packed,
            data.pack = .ok packed → other.pack = .ok packed → other = data) := by
  refine ⟨?_, ?_, fun id => conversionId_eq_ok_iff, fun countable => ⟨fun input => ?_, ?_⟩⟩
  · simp only [pack_eq_error_iff, exists_and_left, exists_eq, and_true, Keyed,
      InitialValidator.Keyed, not_forall, exists_prop, ne_eq]
  · exact fun cause failed => (pack_eq_error_iff.mp failed).2
  · refine ⟨fun accepted => ?_, unpack_of_pack countable⟩
    obtain ⟨rfl, keyed, _⟩ := unpack_eq_ok_iff.mp accepted
    exact pack_eq_ok_iff.mpr ⟨keyed, rfl⟩
  · intro other countableOther packed written writtenOther
    have found := unpack_of_pack countable written
    rw [unpack_of_pack countableOther writtenOther] at found
    exact Except.ok.inj found

/-- A validator set of two, the second one with an empty node id. -/
def sample : ConversionData where
  subnetId := .zero
  validatorManagerBlockchainId := .zero
  validatorManagerAddress := .ofNat 3
  initialValidators := [⟨[4, 5], Bytes.zeros 48, 7⟩, ⟨[], Bytes.zeros 48, 1⟩]

/-- The sample is packed in a form that is unpacked again. -/
theorem sample_unpack_packedFields :
    sample.Countable ∧ unpack sample.packedFields = .ok sample := by
  have countable : sample.Countable := ⟨by decide, by decide⟩
  have written : sample.pack = .ok sample.packedFields := pack_eq_ok_iff.mpr ⟨by decide, rfl⟩
  obtain ⟨_, _, _, both⟩ := unpack_eq_ok_iff_pack_eq_ok sample
  exact ⟨countable, ((both countable).1 _).mpr written⟩

end ConversionData
end Valset
