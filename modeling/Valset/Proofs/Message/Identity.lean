import Mathlib.Data.Set.Function
import Valset.Proofs.Message.RoundTrip

/-!
# Validation ids and what they stand for

A validator is known either as a member of the first set of a subnet or from the terms on which it
was registered. In both cases its validation id is a hash. The hashed bytes determine the validator:
those of the first set are shorter than any register message, and a register message is read back to
one period only.
-/

namespace Valset

open Packed

/-- A validator, from the first set of a subnet or registered later. -/
inductive Validation
  | initial (subnet : SubnetId) (index : UInt32)
  | registered (period : ValidationPeriod)
deriving DecidableEq

namespace Validation

/-- The validation id, which a register message gives along with its bytes. -/
def id? : Validation → Except MessageError ValidationId
  | .initial subnet index => .ok (initialValidationId subnet index)
  | .registered period => (·.1) <$> Message.packRegister period

/-- The bytes that are hashed into the validation id. -/
def preimage? : Validation → Except MessageError Bytes
  | .initial subnet index => .ok (subnet.hash.bytes ++ u32 index)
  | .registered period => (·.2) <$> Message.packRegister period

/-- A validator whose node id and owners have lengths that fit into four bytes. -/
def Countable : Validation → Prop
  | .initial _ _ => True
  | .registered period =>
    period.nodeId.length < UInt32.size ∧ period.remainingBalanceOwner.Countable ∧
      period.disableOwner.Countable

instance : (validation : Validation) → Decidable validation.Countable
  | .initial _ _ => inferInstanceAs (Decidable True)
  | .registered _ => inferInstanceAs (Decidable (_ ∧ _ ∧ _))

/-- The validation id is the hash of its preimage. -/
theorem id?_eq_ok_iff
    {validation : Validation}
    {id : ValidationId} :
    validation.id? = .ok id ↔
      ∃ preimage, validation.preimage? = .ok preimage ∧ id = ⟨Sha256.hash preimage⟩ := by
  cases validation with
  | initial subnet index =>
      simp [id?, preimage?, initialValidationId, eq_comm]
  | registered period =>
      rw [id?, preimage?, Message.packRegister_eq_ite]
      split <;> simp [Functor.map, Except.map, eq_comm]

theorem preimage?_registered_eq_ok_iff
    {period : ValidationPeriod}
    {preimage : Bytes} :
    (registered period).preimage? = .ok preimage ↔
      period.blsPublicKey.length = blsPublicKeyLength ∧
        preimage = Message.header Message.registerType ++ period.pack := by
  rw [preimage?, Message.packRegister_eq_ite]
  split <;> simp_all [Functor.map, Except.map, eq_comm]

/-- A register message is longer than the preimage of a validator of the first set. -/
theorem length_initial_lt_length_registered
    (subnet : SubnetId)
    (index : UInt32)
    {period : ValidationPeriod}
    (sized : period.blsPublicKey.length = blsPublicKeyLength) :
    (subnet.hash.bytes ++ u32 index).length <
      (Message.header Message.registerType ++ period.pack).length := by
  simp only [List.length_append, FixedBytes.length_bytes, length_u32, Message.length_header,
    ValidationPeriod.pack, sized, Message.headerLength, blsPublicKeyLength]
  omega

theorem eq_of_initial_preimage
    {subnet otherSubnet : SubnetId}
    {index otherIndex : UInt32}
    (same : subnet.hash.bytes ++ u32 index = otherSubnet.hash.bytes ++ u32 otherIndex) :
    initial subnet index = initial otherSubnet otherIndex := by
  have sized : subnet.hash.bytes.length = otherSubnet.hash.bytes.length := by
    rw [subnet.hash.length_bytes, otherSubnet.hash.length_bytes]
  obtain ⟨sameHash, sameIndex⟩ := List.append_inj same sized
  have sameSubnet : subnet = otherSubnet := by
    obtain ⟨⟨bytes, length_bytes⟩⟩ := subnet
    obtain ⟨⟨otherBytes, length_otherBytes⟩⟩ := otherSubnet
    subst sameHash
    rfl
  rw [sameSubnet, u32_injective sameIndex]

/-- Two countable validators with the same preimage are the same one. -/
theorem eq_of_preimage?_eq
    {one other : Validation}
    {preimage : Bytes}
    (countable : one.Countable)
    (countableOther : other.Countable)
    (hashed : one.preimage? = .ok preimage)
    (hashedOther : other.preimage? = .ok preimage) :
    one = other := by
  cases one with
  | initial subnet index =>
      obtain rfl := Except.ok.inj hashed
      cases other with
      | initial otherSubnet otherIndex =>
          exact eq_of_initial_preimage (Except.ok.inj hashedOther).symm
      | registered period =>
          obtain ⟨sized, same⟩ := preimage?_registered_eq_ok_iff.mp hashedOther
          have shorter := length_initial_lt_length_registered subnet index sized
          rw [← same] at shorter
          exact absurd shorter (Nat.lt_irrefl _)
  | registered period =>
      obtain ⟨sized, rfl⟩ := preimage?_registered_eq_ok_iff.mp hashed
      cases other with
      | initial subnet index =>
          have shorter := length_initial_lt_length_registered subnet index sized
          rw [Except.ok.inj hashedOther] at shorter
          exact absurd shorter (Nat.lt_irrefl _)
      | registered otherPeriod =>
          obtain ⟨sizedOther, same⟩ := preimage?_registered_eq_ok_iff.mp hashedOther
          obtain ⟨nodeId, remaining, disable⟩ := countable
          obtain ⟨nodeIdOther, remainingOther, disableOther⟩ := countableOther
          have read := Message.unpackRegister_eq_ok_iff.mpr
            ⟨rfl, (⟨nodeId, sized, remaining, disable⟩ : period.Packable)⟩
          have readOther := Message.unpackRegister_eq_ok_iff.mpr
            ⟨same, (⟨nodeIdOther, sizedOther, remainingOther, disableOther⟩ :
              otherPeriod.Packable)⟩
          rw [read] at readOther
          rw [Except.ok.inj readOther]

/-- The bytes that are hashed into the ids of some validators. -/
def preimages (validations : Set Validation) : Set Bytes :=
  {preimage | ∃ validation ∈ validations, validation.preimage? = .ok preimage}

/-- The id of each validator is the hash of its preimage, and equal preimages belong to the same
validator of a first set or to the same registered period. Among validators whose preimages do not
collide under the hash, an id therefore belongs to one validator. -/
theorem eq_of_id?_eq
    (validations : Set Validation)
    (countable : ∀ validation ∈ validations, validation.Countable) :
    (∀ validation ∈ validations, ∀ id, validation.id? = .ok id ↔
        ∃ preimage, validation.preimage? = .ok preimage ∧ id = ⟨Sha256.hash preimage⟩) ∧
      (∀ one ∈ validations, ∀ other ∈ validations, ∀ preimage,
        one.preimage? = .ok preimage → other.preimage? = .ok preimage → one = other) ∧
      (Set.InjOn Sha256.hash (preimages validations) →
        ∀ one ∈ validations, ∀ other ∈ validations, ∀ id,
          one.id? = .ok id → other.id? = .ok id → one = other) := by
  refine ⟨fun _ _ _ => id?_eq_ok_iff, ?_, ?_⟩
  · intro one present other presentOther preimage
    exact eq_of_preimage?_eq (countable one present) (countable other presentOther)
  · intro noCollision one present other presentOther id identified identifiedOther
    obtain ⟨preimage, hashed, rfl⟩ := id?_eq_ok_iff.mp identified
    obtain ⟨preimageOther, hashedOther, sameId⟩ := id?_eq_ok_iff.mp identifiedOther
    have samePreimage : preimage = preimageOther :=
      noCollision ⟨one, present, hashed⟩ ⟨other, presentOther, hashedOther⟩ (Id.mk.inj sameId)
    rw [← samePreimage] at hashedOther
    exact eq_of_preimage?_eq (countable one present) (countable other presentOther) hashed
      hashedOther

/-- A validator of a first set and one that is registered on the same subnet. -/
def samples : Set Validation :=
  {.initial .zero 7, .registered Message.samplePeriod}

/-- The hashes behind the ids of the two samples. -/
theorem hash_sample_ne_hash_sample :
    Sha256.hash (Bytes.zeros 32 ++ u32 7) ≠
      Sha256.hash (Message.header Message.registerType ++ Message.samplePeriod.pack) := by
  decide +kernel

/-- The two samples hash different bytes and have different identifiers. -/
theorem samples_eq_of_id?_eq :
    (∀ validation ∈ samples, validation.Countable) ∧
      Set.InjOn Sha256.hash (preimages samples) ∧
        (initial .zero 7).id? ≠ (registered Message.samplePeriod).id? := by
  have countable : ∀ validation ∈ samples, validation.Countable := by
    rintro validation (rfl | rfl)
    · trivial
    · decide
  have noCollision : Set.InjOn Sha256.hash (preimages samples) := by
    rintro _ ⟨_, (rfl | rfl), hashed⟩ _ ⟨_, (rfl | rfl), hashedOther⟩ same
    · exact Except.ok.inj (hashed.symm.trans hashedOther)
    · obtain rfl := Except.ok.inj hashed
      obtain ⟨_, rfl⟩ := preimage?_registered_eq_ok_iff.mp hashedOther
      exact absurd same hash_sample_ne_hash_sample
    · obtain rfl := Except.ok.inj hashedOther
      obtain ⟨_, rfl⟩ := preimage?_registered_eq_ok_iff.mp hashed
      exact absurd same.symm hash_sample_ne_hash_sample
    · exact Except.ok.inj (hashed.symm.trans hashedOther)
  refine ⟨countable, noCollision, fun sameId => ?_⟩
  obtain ⟨_, _, unique⟩ := eq_of_id?_eq samples countable
  cases unique noCollision _ (.inl rfl) _ (.inr rfl) (initialValidationId .zero 7) rfl sameId.symm

end Validation
end Valset
