import Valset.Message
import Valset.Proofs.Message.Fields

/-!
# What messages are read from

Each kind of message is read from its written form and from nothing else, except that the outcome in
a registration message may be any byte.
-/

namespace Valset

open Packed

/-! ## Periods -/

/-- An owner whose addresses can be counted in four bytes. -/
def Owner.Countable (owner : Owner) : Prop :=
  owner.addresses.length < UInt32.size

instance (owner : Owner) : Decidable owner.Countable :=
  inferInstanceAs (Decidable (_ < _))

/-- A period that can be written: the key has the right length and all other lengths fit into four
bytes. -/
structure ValidationPeriod.Packable (period : ValidationPeriod) : Prop where
  nodeId : period.nodeId.length < UInt32.size
  blsPublicKey : period.blsPublicKey.length = blsPublicKeyLength
  remainingBalanceOwner : period.remainingBalanceOwner.Countable
  disableOwner : period.disableOwner.Countable

instance : Local Owner.unpack := by
  unfold Owner.unpack
  infer_instance

@[simp] theorem Owner.reads_unpack_iff
    {bytes : Bytes}
    {owner : Owner} :
    Reads Owner.unpack bytes owner ↔ bytes = owner.pack ∧ owner.Countable := by
  have addresses_iff (bytes : Bytes) (addresses : List Address) :
      Reads (takeList (takeFixed 20)) bytes addresses ↔
        bytes = count addresses ++ addresses.flatMap (·.bytes) ∧
          addresses.length < UInt32.size ∧ ∀ address ∈ addresses, True :=
    reads_takeList_iff fun _ _ => by simp
  simp only [Owner.unpack, reads_bind_iff, reads_pure_iff, reads_takeU32_iff, addresses_iff]
  constructor
  · rintro ⟨threshold, _, _, rfl, rfl, addresses, _, _, rfl, ⟨rfl, fits, _⟩, rfl, rfl⟩
    exact ⟨by simp [Owner.pack], fits⟩
  · rintro ⟨rfl, fits⟩
    refine ⟨owner.threshold, _, _, ?_, rfl, owner.addresses, _, _, (List.append_nil _).symm,
      ⟨rfl, fits, fun _ _ => trivial⟩, rfl, rfl⟩
    simp [Owner.pack]

instance : Local ValidationPeriod.unpack := by
  unfold ValidationPeriod.unpack
  infer_instance

@[simp] theorem ValidationPeriod.reads_unpack_iff
    {bytes : Bytes}
    {period : ValidationPeriod} :
    Reads ValidationPeriod.unpack bytes period ↔ bytes = period.pack ∧ period.Packable := by
  simp only [ValidationPeriod.unpack, reads_bind_iff, reads_pure_iff, reads_takeFixed_iff,
    reads_takeCounted_iff, reads_take_iff, reads_takeU64_iff, Owner.reads_unpack_iff]
  constructor
  · rintro ⟨subnet, _, _, rfl, rfl, nodeId, _, _, rfl, ⟨rfl, nodeIdFits⟩, key, _, _, rfl,
      ⟨rfl, keySized⟩, expiry, _, _, rfl, rfl, remaining, _, _, rfl, ⟨rfl, remainingCountable⟩,
      disable, _, _, rfl, ⟨rfl, disableCountable⟩, weight, _, _, rfl, rfl, rfl, rfl⟩
    exact ⟨by simp [ValidationPeriod.pack],
      ⟨nodeIdFits, keySized, remainingCountable, disableCountable⟩⟩
  · rintro ⟨rfl, packable⟩
    refine ⟨period.subnetId.hash, _, _, ?_, rfl, period.nodeId, _, _, rfl,
      ⟨rfl, packable.nodeId⟩, period.blsPublicKey, _, _, rfl, ⟨rfl, packable.blsPublicKey⟩,
      period.registrationExpiry, _, _, rfl, rfl, period.remainingBalanceOwner, _, _, rfl,
      ⟨rfl, packable.remainingBalanceOwner⟩, period.disableOwner, _, _, rfl,
      ⟨rfl, packable.disableOwner⟩, period.weight, _, _, rfl, rfl, rfl, rfl⟩
    simp [ValidationPeriod.pack]

namespace Message

/-! ## Headers -/

@[simp] theorem length_header (type : UInt32) : (header type).length = headerLength := by
  simp [header, headerLength]

/-- A header names its type. -/
theorem typeOf_header_append
    (type : UInt32)
    (rest : Bytes) :
    typeOf (header type ++ rest) = type := by
  have codec : (header type ++ rest).drop 2 = u32 type ++ rest := by
    rw [header, List.append_assoc]
    exact List.drop_left' (length_u16 codecId)
  have fits : type.toNat < 256 ^ 4 := type.toNat_lt
  rw [typeOf, codec, List.take_left' (length_u32 type), u32, Bytes.toNat_ofNat,
    Nat.mod_eq_of_lt fits, UInt32.ofNat_toNat]

instance : Local takeCodecId := by
  unfold takeCodecId
  infer_instance

instance (type : UInt32) : Local (takeHeader type) := by
  unfold takeHeader
  infer_instance

@[simp] theorem reads_takeHeader_iff
    {type : UInt32}
    {bytes : Bytes}
    {done : Unit} :
    Reads (takeHeader type) bytes done ↔ bytes = header type := by
  simp [takeHeader, takeCodecId, header]

/-! ## The five kinds -/

/-- A message of a fixed length is read from its header and from fields that fill it up. -/
theorem readFixed_eq_ok_iff
    {α : Type}
    {fields : Reading α}
    [Local fields]
    {length : Nat}
    (filled : ∀ bytes value, Reads fields bytes value → headerLength + bytes.length = length)
    {type : UInt32}
    {input : Bytes}
    {value : α} :
    readFixed length type fields input = .ok value ↔
      ∃ bytes, input = header type ++ bytes ∧ Reads fields bytes value := by
  rw [readFixed]
  constructor
  · intro accepted
    split at accepted
    · cases accepted
    · rename_i sized
      rw [read_eq_ok_iff] at accepted
      obtain ⟨_, after, rfl, reads⟩ := accepted
      obtain ⟨_, _, bytes, rfl, readsHeader, readsFields⟩ := reads_bind_iff.mp reads
      obtain rfl := reads_takeHeader_iff.mp readsHeader
      have whole := filled bytes value readsFields
      have nothing : after = [] := by
        apply List.eq_nil_of_length_eq_zero
        simp only [List.length_append, length_header] at sized
        omega
      exact ⟨bytes, by rw [nothing, List.append_nil], readsFields⟩
  · rintro ⟨bytes, rfl, reads⟩
    have whole := filled bytes value reads
    rw [if_neg (by simpa using whole), read_eq_ok_iff]
    exact ⟨_, [], (List.append_nil _).symm,
      reads_bind_iff.mpr ⟨(), _, _, rfl, reads_takeHeader_iff.mpr rfl, reads⟩⟩

instance {kind : IdKind} : Local (takeId : Packed.Reading (Id kind)) :=
  inferInstanceAs (Local (Id.mk <$> takeFixed 32))

@[simp] theorem reads_takeId_iff
    {kind : IdKind}
    {bytes : Bytes}
    {id : Id kind} :
    Reads takeId bytes id ↔ bytes = id.hash.bytes := by
  rw [takeId, reads_map_iff]
  simp only [reads_takeFixed_iff]
  constructor
  · rintro ⟨hash, rfl, rfl⟩
    rfl
  · rintro rfl
    exact ⟨id.hash, rfl, rfl⟩

variable {input : Bytes}

theorem unpackConversion_eq_ok_iff {conversion : ConversionId} :
    unpackConversion input = .ok conversion ↔ input = packConversion conversion := by
  rw [unpackConversion, readFixed_eq_ok_iff]
  · simp [packConversion]
  · intro bytes value reads
    obtain rfl := reads_takeId_iff.mp reads
    simp [FixedBytes.length_bytes, headerLength, conversionLength]

/-- A register message is read up to the end of the input. -/
theorem unpackRegister_eq_read_finish :
    unpackRegister = read (do
      let period ← (do
        takeHeader registerType
        ValidationPeriod.unpack)
      finish
      return period) := by
  funext input
  simp only [unpackRegister, bind_assoc]

theorem unpackRegister_eq_ok_iff {period : ValidationPeriod} :
    unpackRegister input = .ok period ↔
      input = header registerType ++ period.pack ∧ period.Packable := by
  rw [unpackRegister_eq_read_finish, read_finish_eq_ok_iff]
  simp

theorem packRegister_eq_ite (period : ValidationPeriod) :
    packRegister period =
      if period.blsPublicKey.length = blsPublicKeyLength then
        .ok (⟨Sha256.hash (header registerType ++ period.pack)⟩, header registerType ++ period.pack)
      else .error .invalidBlsPublicKey := by
  rw [packRegister, checkBlsPublicKey]
  split <;> rfl

/-- The last byte of a registration message may be any one that stands for the outcome. -/
theorem unpackRegistration_eq_ok_iff
    {validation : ValidationId}
    {registered : Bool} :
    unpackRegistration input = .ok (validation, registered) ↔
      ∃ outcome : UInt8,
        input = header registrationType ++ (validation.hash.bytes ++ [outcome]) ∧
          registered = (outcome != 0) := by
  rw [unpackRegistration, readFixed_eq_ok_iff]
  · simp
  · intro bytes value reads
    simp only [reads_bind_iff, reads_pure_iff, reads_takeId_iff, reads_takeBool_iff] at reads
    obtain ⟨_, _, _, rfl, rfl, _, _, _, rfl, ⟨_, rfl, _⟩, rfl, _⟩ := reads
    simp [FixedBytes.length_bytes, headerLength, registrationLength]

theorem unpackWeight_eq_ok_iff
    {validation : ValidationId}
    {nonce weight : UInt64} :
    unpackWeight input = .ok (validation, nonce, weight) ↔
      input = packWeight validation nonce weight := by
  rw [unpackWeight, readFixed_eq_ok_iff]
  · simp [packWeight]
  · intro bytes value reads
    simp only [reads_bind_iff, reads_pure_iff, reads_takeId_iff, reads_takeU64_iff] at reads
    obtain ⟨_, _, _, rfl, rfl, _, _, _, rfl, rfl, _, _, _, rfl, rfl, rfl, _⟩ := reads
    simp [FixedBytes.length_bytes, headerLength, weightLength]

theorem unpackUptime_eq_ok_iff
    {validation : ValidationId}
    {uptime : UInt64} :
    unpackUptime input = .ok (validation, uptime) ↔ input = packUptime validation uptime := by
  rw [unpackUptime, readFixed_eq_ok_iff]
  · simp [packUptime]
  · intro bytes value reads
    simp only [reads_bind_iff, reads_pure_iff, reads_takeId_iff, reads_takeU64_iff] at reads
    obtain ⟨_, _, _, rfl, rfl, _, _, _, rfl, rfl, rfl, _⟩ := reads
    simp [FixedBytes.length_bytes, headerLength, uptimeLength]

end Message
end Valset
