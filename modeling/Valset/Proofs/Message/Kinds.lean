import Valset.Proofs.Except
import Valset.Proofs.Message.Written

/-!
# Kinds of messages

A byte string is the written form of at most one message. Decoding finds it, so it accepts what one
of the five kinds accepts and gives what that kind gives.
-/

namespace Valset
namespace Message

/-- The kinds of messages. -/
inductive Kind
  | conversion
  | register
  | registration
  | weight
  | uptime
deriving DecidableEq

/-- The kind of a message. -/
def kind : Message → Kind
  | .subnetToL1Conversion _ => .conversion
  | .registerL1Validator _ _ => .register
  | .l1ValidatorRegistration _ _ => .registration
  | .l1ValidatorWeight _ _ _ => .weight
  | .validationUptime _ _ => .uptime

/-- The message of a given kind that is read from bytes. The validation id of a register message is
the hash of the bytes. -/
def unpackAs (kind : Kind) (input : Bytes) : Except MessageError Message :=
  match kind with
  | .conversion => .subnetToL1Conversion <$> unpackConversion input
  | .register => .registerL1Validator ⟨Sha256.hash input⟩ <$> unpackRegister input
  | .registration =>
    (fun (validation, registered) => .l1ValidatorRegistration validation registered) <$>
      unpackRegistration input
  | .weight =>
    (fun (validation, nonce, weight) => .l1ValidatorWeight validation nonce weight) <$>
      unpackWeight input
  | .uptime =>
    (fun (validation, uptime) => .validationUptime validation uptime) <$> unpackUptime input

/-- The bytes are a written form of the message. -/
def WrittenAs : Message → Bytes → Prop
  | .subnetToL1Conversion conversion, input => input = packConversion conversion
  | .registerL1Validator validation period, input =>
    input = header registerType ++ period.pack ∧ period.Packable ∧
      validation = ⟨Sha256.hash input⟩
  | .l1ValidatorRegistration validation registered, input =>
    ∃ outcome : UInt8,
      input = header registrationType ++ (validation.hash.bytes ++ [outcome]) ∧
        registered = (outcome != 0)
  | .l1ValidatorWeight validation nonce weight, input => input = packWeight validation nonce weight
  | .validationUptime validation uptime, input => input = packUptime validation uptime

variable
  {input : Bytes}
  {message : Message}

/-- A kind accepts the written forms of its messages. -/
theorem unpackAs_eq_ok_iff {kind : Kind} :
    unpackAs kind input = .ok message ↔ message.kind = kind ∧ message.WrittenAs input := by
  cases kind with
  | conversion =>
      simp only [unpackAs, map_eq_ok_iff, unpackConversion_eq_ok_iff]
      cases message <;> simp [Message.kind, WrittenAs]
  | register =>
      simp only [unpackAs, map_eq_ok_iff, @eq_comm _ _ message, unpackRegister_eq_ok_iff]
      cases message <;> simp [Message.kind, WrittenAs, and_assoc]
  | registration =>
      simp only [unpackAs, map_eq_ok_iff, @eq_comm _ _ message, Prod.exists,
        unpackRegistration_eq_ok_iff]
      cases message <;> simp [Message.kind, WrittenAs]
  | weight =>
      simp only [unpackAs, map_eq_ok_iff, Prod.exists, unpackWeight_eq_ok_iff]
      cases message <;> simp [Message.kind, WrittenAs]
  | uptime =>
      simp only [unpackAs, map_eq_ok_iff, Prod.exists, unpackUptime_eq_ok_iff]
      cases message <;> simp [Message.kind, WrittenAs]

/-! ## Decoding -/

/-- The kind that decoding tries for bytes with a type. -/
def kindFor? (type : UInt32) (length : Nat) : Option Kind :=
  if type = uptimeType ∧ length = uptimeLength then some .uptime
  else if type = conversionType then some .conversion
  else if type = registerType then some .register
  else if type = registrationType then some .registration
  else if type = weightType then some .weight
  else none

/-- Decoding reads an input as the kind that its type and its length point to. -/
theorem decode_eq_unpackAs (input : Bytes) :
    decode input =
      if input.length < headerLength then .error (.ofLengths input.length headerLength)
      else match kindFor? (typeOf input) input.length with
        | some kind => unpackAs kind input
        | none => .error .invalidMessageType := by
  rw [decode, kindFor?]
  by_cases uptime : typeOf input = uptimeType ∧ input.length = uptimeLength
  · simp only [if_pos uptime, unpackAs]
  · simp only [if_neg uptime]
    split
    · rfl
    · split
      · rfl
      · split
        · rfl
        · split
          · rfl
          · split <;> rfl

/-- Type and length of a written form point to its kind. -/
theorem WrittenAs.kindFor?_eq (written : message.WrittenAs input) :
    headerLength ≤ input.length ∧ kindFor? (typeOf input) input.length = some message.kind := by
  cases message with
  | subnetToL1Conversion conversion =>
      obtain rfl : input = _ := written
      rw [packConversion, typeOf_header_append]
      simp [kindFor?, kind, conversionType, uptimeType, uptimeLength, headerLength,
        FixedBytes.length_bytes]
  | registerL1Validator validation period =>
      obtain ⟨rfl, _, _⟩ := written
      rw [typeOf_header_append]
      simp [kindFor?, kind, registerType, conversionType, uptimeType]
  | l1ValidatorRegistration validation registered =>
      obtain ⟨outcome, rfl, _⟩ := written
      rw [typeOf_header_append]
      simp [kindFor?, kind, registrationType, registerType, conversionType, uptimeType]
  | l1ValidatorWeight validation nonce weight =>
      obtain rfl : input = _ := written
      rw [packWeight, List.append_assoc, List.append_assoc, typeOf_header_append]
      simp [kindFor?, kind, weightType, registrationType, registerType, conversionType, uptimeType]
  | validationUptime validation uptime =>
      obtain rfl : input = _ := written
      rw [packUptime, List.append_assoc, typeOf_header_append]
      simp [kindFor?, kind, uptimeType, uptimeLength, headerLength, FixedBytes.length_bytes]

/-- Decoding accepts the written forms of messages. -/
theorem decode_eq_ok_iff_writtenAs : decode input = .ok message ↔ message.WrittenAs input := by
  rw [decode_eq_unpackAs]
  constructor
  · intro decoded
    split at decoded
    · cases decoded
    · split at decoded
      · exact (unpackAs_eq_ok_iff.mp decoded).2
      · cases decoded
  · intro written
    obtain ⟨enough, found⟩ := written.kindFor?_eq
    rw [if_neg (Nat.not_lt.mpr enough), found]
    exact unpackAs_eq_ok_iff.mpr ⟨rfl, written⟩

/-- A byte string is the written form of at most one message. -/
theorem WrittenAs.unique
    {other : Message}
    (written : message.WrittenAs input)
    (writtenOther : other.WrittenAs input) :
    message = other := by
  have first := decode_eq_ok_iff_writtenAs.mpr written
  rw [decode_eq_ok_iff_writtenAs.mpr writtenOther] at first
  exact (Except.ok.inj first).symm

/-- At most one kind accepts an input. Decoding accepts what some kind accepts and gives the message
of that kind. -/
theorem decode_eq_ok_iff_unpackAs (input : Bytes) :
    (∀ one other : Kind,
        (unpackAs one input).isOk → (unpackAs other input).isOk → one = other) ∧
      ∀ message, decode input = .ok message ↔ ∃ kind, unpackAs kind input = .ok message := by
  constructor
  · intro one other acceptedOne acceptedOther
    cases first : unpackAs one input with
    | error cause => simp [first, Except.isOk, Except.toBool] at acceptedOne
    | ok message =>
        cases second : unpackAs other input with
        | error cause => simp [second, Except.isOk, Except.toBool] at acceptedOther
        | ok found =>
            obtain ⟨rfl, written⟩ := unpackAs_eq_ok_iff.mp first
            obtain ⟨rfl, writtenFound⟩ := unpackAs_eq_ok_iff.mp second
            rw [written.unique writtenFound]
  · intro message
    rw [decode_eq_ok_iff_writtenAs]
    constructor
    · exact fun written => ⟨message.kind, unpackAs_eq_ok_iff.mpr ⟨rfl, written⟩⟩
    · rintro ⟨kind, accepted⟩
      exact (unpackAs_eq_ok_iff.mp accepted).2

end Message
end Valset
