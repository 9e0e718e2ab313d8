import Valset.Proofs.Message.Conversion
import Valset.Proofs.Message.Precedence

/-!
# The conversion message of conversion data

A conversion message agrees with conversion data if the id in it is the hash of their packed form.
The message is nothing but its id behind a header, so one byte string agrees with conversion data in
which every key has the right length, and none agrees with others.
-/

namespace Valset

open Packed

/-- Conversion data are refused for a key, never for an id. -/
theorem ConversionData.conversionId_ne_error_invalidConversionId
    (data : ConversionData)
    (encoded expected : ConversionId) :
    data.conversionId ≠ .error (.invalidConversionId encoded expected) := by
  rw [conversionId]
  cases packing : data.pack with
  | error cause =>
      obtain ⟨_, rfl⟩ := pack_eq_error_iff.mp packing
      simp [bind, Except.bind]
  | ok packed => simp [bind, Except.bind, pure, Except.pure]

namespace Message

variable
  {input : Bytes}
  {data : ConversionData}

/-- A conversion message is refused for its length, its codec id or its type id, never for the id in
it. -/
theorem unpackConversion_ne_error_invalidConversionId
    (input : Bytes)
    (encoded expected : ConversionId) :
    unpackConversion input ≠ .error (.invalidConversionId encoded expected) := by
  have sized : headerLength ≤ conversionLength := by decide
  rw [unpackConversion, readFixed_eq_ite sized]
  by_cases same : input.length = conversionLength
  · have taken : ∃ id, (readFrom (takeId : Reading ConversionId) ⟨input, headerLength⟩).1 =
        .ok id := by
      rw [takeId, readFrom_map, takeFixed, readFrom_map, readFrom_take,
        if_neg (by simp [same, headerLength, conversionLength])]
      exact ⟨_, rfl⟩
    obtain ⟨id, taken⟩ := taken
    rw [if_neg (not_not.mpr same), taken]
    split
    · simp
    · split
      · simp
      · simp
  · rw [if_pos same]
    simp [MessageError.ofLengths]

theorem verifyConversion_eq_match
    (input : Bytes)
    (data : ConversionData) :
    verifyConversion input data =
      match unpackConversion input with
      | .error cause => .error cause
      | .ok encoded =>
        match data.conversionId with
        | .error cause => .error cause
        | .ok expected =>
          if encoded = expected then .ok expected
          else .error (.invalidConversionId encoded expected) := by
  rw [verifyConversion]
  cases unpackConversion input with
  | error cause => rfl
  | ok encoded =>
      cases data.conversionId with
      | error cause => rfl
      | ok expected =>
          by_cases same : encoded = expected
          · rw [same]
            simp [bind, Except.bind, pure, Except.pure]
          · simp [bind, Except.bind, same, throw, throwThe, MonadExceptOf.throw]

theorem verifyConversion_eq_ok_iff {id : ConversionId} :
    verifyConversion input data = .ok id ↔
      unpackConversion input = .ok id ∧ data.conversionId = .ok id := by
  rw [verifyConversion_eq_match]
  cases unpackConversion input with
  | error cause => simp
  | ok encoded =>
      cases data.conversionId with
      | error cause => simp
      | ok expected =>
          by_cases same : encoded = expected
          · simp [same]
          · simp only [if_neg same, reduceCtorEq, Except.ok.injEq, false_iff]
            rintro ⟨rfl, rfl⟩
            exact same rfl

theorem verifyConversion_eq_error_invalidConversionId_iff {encoded expected : ConversionId} :
    verifyConversion input data = .error (.invalidConversionId encoded expected) ↔
      (unpackConversion input = .ok encoded ∧ data.conversionId = .ok expected) ∧
        encoded ≠ expected := by
  rw [verifyConversion_eq_match]
  cases unpacking : unpackConversion input with
  | error cause =>
      have other := unpackConversion_ne_error_invalidConversionId input encoded expected
      rw [unpacking] at other
      simpa using other
  | ok found =>
      cases hashing : data.conversionId with
      | error cause =>
          have other := data.conversionId_ne_error_invalidConversionId encoded expected
          rw [hashing] at other
          simpa using other
      | ok computed =>
          by_cases same : found = computed
          · simp only [if_pos same, reduceCtorEq, Except.ok.injEq, false_iff]
            rintro ⟨⟨rfl, rfl⟩, other⟩
            exact other same
          · simp only [if_neg same, Except.error.injEq, MessageError.invalidConversionId.injEq,
              Except.ok.injEq]
            constructor
            · rintro ⟨rfl, rfl⟩
              exact ⟨⟨rfl, rfl⟩, same⟩
            · exact And.left

/-- Verifying gives an id exactly for the one message with the hash of the packed conversion data,
whose keys must all have the right length. It blames the ids exactly for the message of an id that
is not that hash, and then names both. -/
theorem verifyConversion_agrees_iff
    (input : Bytes)
    (data : ConversionData) :
    (∀ id, verifyConversion input data = .ok id ↔
      (∀ validator ∈ data.initialValidators,
          validator.blsPublicKey.length = blsPublicKeyLength) ∧
        (∃ packed, data.pack = .ok packed ∧ id = ⟨Sha256.hash packed⟩) ∧
        input = packConversion id) ∧
      ∀ encoded expected,
        verifyConversion input data = .error (.invalidConversionId encoded expected) ↔
          input = packConversion encoded ∧
            (∃ packed, data.pack = .ok packed ∧ expected = ⟨Sha256.hash packed⟩) ∧
            encoded ≠ expected := by
  constructor
  · intro id
    rw [verifyConversion_eq_ok_iff, unpackConversion_eq_ok_iff,
      ConversionData.conversionId_eq_ok_iff]
    constructor
    · rintro ⟨message, packed, packs, hashed⟩
      have keyed := (ConversionData.pack_eq_ok_iff.mp packs).1
      exact ⟨keyed, ⟨packed, packs, hashed⟩, message⟩
    · rintro ⟨_, packs, message⟩
      exact ⟨message, packs⟩
  · intro encoded expected
    rw [verifyConversion_eq_error_invalidConversionId_iff, unpackConversion_eq_ok_iff,
      ConversionData.conversionId_eq_ok_iff, and_assoc]

end Message
end Valset
