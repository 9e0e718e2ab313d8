import Valset.Proofs.Message.Kinds

/-!
# Messages and their bytes

Encoding and decoding undo each other. A message comes back from its bytes as soon as its fields can
be written, and everything that is decoded is encoded to the same bytes, except that the outcome of
a registration is written as 0 or 1 only.
-/

namespace Valset
namespace Message

variable
  {input : Bytes}
  {message : Message}

/-- A message whose fields can be written. A register message must name the hash of its bytes. -/
def Encodable : Message → Prop
  | .registerL1Validator validation period =>
    period.Packable ∧
      ∀ packed, encode (.registerL1Validator validation period) = .ok packed →
        validation = ⟨Sha256.hash packed⟩
  | _ => True

theorem encode_registerL1Validator
    (validation : ValidationId)
    {period : ValidationPeriod}
    (sized : period.blsPublicKey.length = blsPublicKeyLength) :
    encode (.registerL1Validator validation period) = .ok (header registerType ++ period.pack) := by
  rw [encode, packRegister, checkBlsPublicKey, if_pos sized]
  rfl

theorem WrittenAs.of_registration
    (validation : ValidationId)
    (registered : Bool) :
    WrittenAs (.l1ValidatorRegistration validation registered)
      (packRegistration validation registered) := by
  refine ⟨if registered then 1 else 0, ?_, ?_⟩
  · simp [packRegistration, Packed.bool]
  · cases registered <;> rfl

/-- A message that can be written is encoded to a written form. -/
theorem Encodable.exists_writtenAs (encodable : message.Encodable) :
    ∃ packed, message.encode = .ok packed ∧ message.WrittenAs packed := by
  cases message with
  | subnetToL1Conversion conversion => exact ⟨_, rfl, rfl⟩
  | registerL1Validator validation period =>
      obtain ⟨packable, named⟩ := encodable
      have encoded := encode_registerL1Validator validation packable.blsPublicKey
      exact ⟨_, encoded, rfl, packable, named _ encoded⟩
  | l1ValidatorRegistration validation registered =>
      exact ⟨_, rfl, .of_registration validation registered⟩
  | l1ValidatorWeight validation nonce weight => exact ⟨_, rfl, rfl⟩
  | validationUptime validation uptime => exact ⟨_, rfl, rfl⟩

/-- A message that can be written is decoded from its bytes. -/
theorem decode_encode (encodable : message.Encodable) :
    ∃ packed, message.encode = .ok packed ∧ decode packed = .ok message := by
  obtain ⟨packed, encoded, written⟩ := encodable.exists_writtenAs
  exact ⟨packed, encoded, decode_eq_ok_iff_writtenAs.mpr written⟩

/-- The terms of a validator with two owners that act together. -/
def samplePeriod : ValidationPeriod where
  subnetId := .zero
  nodeId := [6, 7]
  blsPublicKey := Bytes.zeros 48
  registrationExpiry := 1700000000
  remainingBalanceOwner := ⟨2, [.ofNat 1, .ofNat 2]⟩
  disableOwner := ⟨0, []⟩
  weight := 100

/-- The register message with the terms of the sample. -/
def sampleRegister : Message :=
  .registerL1Validator ⟨Sha256.hash (header registerType ++ samplePeriod.pack)⟩ samplePeriod

/-- The sample message is encoded and comes back from its bytes. -/
theorem sampleRegister_decode_encode :
    sampleRegister.Encodable ∧
      ∃ packed, sampleRegister.encode = .ok packed ∧ decode packed = .ok sampleRegister := by
  have packable : samplePeriod.Packable := ⟨by decide, by decide, by decide, by decide⟩
  have encodable : sampleRegister.Encodable := by
    refine ⟨packable, ?_⟩
    intro packed encoded
    rw [encode_registerL1Validator _ packable.blsPublicKey] at encoded
    rw [← Except.ok.inj encoded]
  exact ⟨encodable, decode_encode encodable⟩

/-- The bytes with the outcome of a registration written as 0 or 1. -/
def settle : Message → Bytes → Bytes
  | .l1ValidatorRegistration _ _, input =>
    input.dropLast ++ input.getLast?.toList.map fun outcome => if outcome = 0 then 0 else 1
  | _, input => input

/-- Written forms of a registration that differ in how they say that it took place. -/
def DifferInOutcome (message : Message) (one other : Bytes) : Prop :=
  ∃ validation stem, ∃ outcome otherOutcome : UInt8,
    message = .l1ValidatorRegistration validation true ∧ outcome ≠ 0 ∧ otherOutcome ≠ 0 ∧
      one = stem ++ [outcome] ∧ other = stem ++ [otherOutcome]

theorem settle_registration
    (validation : ValidationId)
    (outcome : UInt8) :
    settle (.l1ValidatorRegistration validation (outcome != 0))
        (header registrationType ++ (validation.hash.bytes ++ [outcome])) =
      packRegistration validation (outcome != 0) := by
  rw [settle, ← List.append_assoc, List.dropLast_concat, List.getLast?_concat, packRegistration]
  by_cases zero : outcome = 0 <;> simp [zero, Packed.bool]

/-- A message is encoded to its written forms with the outcome settled. -/
theorem WrittenAs.encode_eq (written : message.WrittenAs input) :
    message.encode = .ok (message.settle input) ∧ message.WrittenAs (message.settle input) := by
  cases message with
  | subnetToL1Conversion conversion =>
      obtain rfl : input = _ := written
      exact ⟨rfl, rfl⟩
  | registerL1Validator validation period =>
      have encoded := encode_registerL1Validator validation written.2.1.blsPublicKey
      rw [← written.1] at encoded
      exact ⟨encoded, written⟩
  | l1ValidatorRegistration validation registered =>
      obtain ⟨outcome, rfl, rfl⟩ := written
      rw [settle_registration]
      exact ⟨rfl, .of_registration _ _⟩
  | l1ValidatorWeight validation nonce weight =>
      obtain rfl : input = _ := written
      exact ⟨rfl, rfl⟩
  | validationUptime validation uptime =>
      obtain rfl : input = _ := written
      exact ⟨rfl, rfl⟩

/-- Two written forms of a message are the same, or they are of a registration that took place. -/
theorem WrittenAs.eq_or_differ
    {other : Bytes}
    (written : message.WrittenAs input)
    (writtenOther : message.WrittenAs other) :
    other = input ∨ message.DifferInOutcome input other := by
  cases message with
  | subnetToL1Conversion conversion => exact .inl (writtenOther.trans written.symm)
  | registerL1Validator validation period => exact .inl (writtenOther.1.trans written.1.symm)
  | l1ValidatorRegistration validation registered =>
      obtain ⟨outcome, rfl, rfl⟩ := written
      obtain ⟨otherOutcome, rfl, same⟩ := writtenOther
      by_cases zero : outcome = 0
      · have otherZero : otherOutcome = 0 := by simpa [zero] using same
        exact .inl (by rw [zero, otherZero])
      · have taken : (outcome != 0) = true := by simpa using zero
        have otherNonzero : otherOutcome ≠ 0 := by
          rw [taken] at same
          simpa using same.symm
        refine .inr ⟨validation, header registrationType ++ validation.hash.bytes, outcome,
          otherOutcome, ?_, zero, otherNonzero, ?_, ?_⟩
        · simp [zero]
        · rw [List.append_assoc]
        · rw [List.append_assoc]
  | l1ValidatorWeight validation nonce weight => exact .inl (writtenOther.trans written.symm)
  | validationUptime validation uptime => exact .inl (writtenOther.trans written.symm)

/-- What is decoded is encoded to the same bytes, with the outcome of a registration settled, and is
decoded from these bytes again. A register message names the hash of its bytes. No other bytes are
decoded to the same message but those of a registration that say in another way that it took
place. -/
theorem encode_decode (decoded : decode input = .ok message) :
    message.encode = .ok (message.settle input) ∧
      decode (message.settle input) = .ok message ∧
      (∀ validation period, message = .registerL1Validator validation period →
        validation = ⟨Sha256.hash input⟩) ∧
      ∀ other, decode other = .ok message →
        other = input ∨ message.DifferInOutcome input other := by
  have written := decode_eq_ok_iff_writtenAs.mp decoded
  obtain ⟨encoded, settled⟩ := written.encode_eq
  refine ⟨encoded, decode_eq_ok_iff_writtenAs.mpr settled, ?_, ?_⟩
  · rintro validation period rfl
    exact written.2.2
  · intro other decodedOther
    exact written.eq_or_differ (decode_eq_ok_iff_writtenAs.mp decodedOther)

/-- A registration whose outcome is written as 7 is encoded with the outcome 1. -/
theorem oddOutcome_encode_decode :
    let input := header registrationType ++ (Bytes.zeros 32 ++ [7])
    let message := Message.l1ValidatorRegistration .zero true
    decode input = .ok message ∧
      message.encode = .ok (header registrationType ++ Bytes.zeros 32 ++ [1]) := by
  have decoded : decode (header registrationType ++ (Bytes.zeros 32 ++ [7])) =
      .ok (.l1ValidatorRegistration .zero true) := by
    decide
  exact ⟨decoded, (encode_decode decoded).1⟩

end Message
end Valset
