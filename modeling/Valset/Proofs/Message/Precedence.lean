import Valset.Proofs.Message.Kinds

/-!
# What a message is refused for

A message is judged by its length first, then by its codec id, then by its type id. Each of the five
kinds keeps that order. Decoding chooses the kind by the type id, before any kind looks at the codec
id, so it keeps the order for the type ids of the five kinds and for no others.
-/

namespace Valset
namespace Message

open Packed

variable {input : Bytes}

/-! ## The header -/

/-- The codec id that the bytes of a message name. -/
def codecOf (input : Bytes) : UInt16 :=
  UInt16.ofNat (Bytes.toNat (input.take 2))

theorem readFrom_takeCodecId (enough : 2 ≤ input.length) :
    readFrom takeCodecId ⟨input, 0⟩ =
      if codecOf input ≠ codecId then
        (.error (.invalidCodecId (codecOf input).toUInt32), ⟨input, 2⟩)
      else (.ok (), ⟨input, 2⟩) := by
  have left : ¬input.length < 0 + 2 := by omega
  have taken : readFrom takeU16 ⟨input, 0⟩ = (.ok (codecOf input), ⟨input, 2⟩) := by
    rw [takeU16, readFrom_map, readFrom_take, if_neg left]
    rfl
  rw [takeCodecId, readFrom_bind, taken]
  dsimp only
  split
  · rfl
  · rfl

theorem readFrom_takeHeader
    (whole : headerLength ≤ input.length)
    (type : UInt32) :
    readFrom (takeHeader type) ⟨input, 0⟩ =
      if codecOf input ≠ codecId then
        (.error (.invalidCodecId (codecOf input).toUInt32), ⟨input, 2⟩)
      else if typeOf input ≠ type then (.error .invalidMessageType, ⟨input, headerLength⟩)
      else (.ok (), ⟨input, headerLength⟩) := by
  rw [headerLength] at whole
  have left : ¬input.length < 2 + 4 := by omega
  have found : readFrom takeU32 ⟨input, 2⟩ = (.ok (typeOf input), ⟨input, headerLength⟩) := by
    rw [takeU32, readFrom_map, readFrom_take, if_neg left]
    rfl
  rw [takeHeader, readFrom_bind, readFrom_takeCodecId (by omega)]
  by_cases foreign : codecOf input ≠ codecId
  · simp only [if_pos foreign]
  · simp only [if_neg foreign, readFrom_bind, found]
    split
    · rfl
    · rfl

/-- Behind a header, the codec id is judged first and the type id second. -/
theorem read_takeHeader_bind
    {α : Type}
    (whole : headerLength ≤ input.length)
    (type : UInt32)
    (fields : Reading α) :
    read (do
      takeHeader type
      fields) input =
      if codecOf input ≠ codecId then .error (.invalidCodecId (codecOf input).toUInt32)
      else if typeOf input ≠ type then .error .invalidMessageType
      else (readFrom fields ⟨input, headerLength⟩).1 := by
  change (readFrom (takeHeader type >>= fun _ => fields) ⟨input, 0⟩).1 = _
  rw [readFrom_bind, readFrom_takeHeader whole]
  by_cases foreign : codecOf input ≠ codecId
  · simp only [if_pos foreign]
  · by_cases wrong : typeOf input ≠ type
    · simp only [if_neg foreign, if_pos wrong]
    · simp only [if_neg foreign, if_neg wrong]

/-- A message of a fixed length is judged by its length before its header. -/
theorem readFixed_eq_ite
    {α : Type}
    {fields : Reading α}
    {length : Nat}
    (sized : headerLength ≤ length)
    (type : UInt32)
    (input : Bytes) :
    readFixed length type fields input =
      if input.length ≠ length then .error (.ofLengths input.length length)
      else if codecOf input ≠ codecId then .error (.invalidCodecId (codecOf input).toUInt32)
      else if typeOf input ≠ type then .error .invalidMessageType
      else (readFrom fields ⟨input, headerLength⟩).1 := by
  rw [readFixed]
  split
  · rfl
  · next same =>
    have whole : headerLength ≤ input.length := by omega
    exact read_takeHeader_bind whole type fields

/-! ## The five kinds -/

/-- The type id of the messages of a kind. -/
def Kind.type : Kind → UInt32
  | .conversion => conversionType
  | .register => registerType
  | .registration => registrationType
  | .weight => weightType
  | .uptime => uptimeType

/-- The length of the messages of a kind, if they all have the same. -/
def Kind.length? : Kind → Option Nat
  | .conversion => some conversionLength
  | .register => none
  | .registration => some registrationLength
  | .weight => some weightLength
  | .uptime => some uptimeLength

/-- What a kind refuses bytes with a foreign codec id for: their length, where the messages of the
kind have one and it is another, else the codec id. -/
def Kind.foreignError (kind : Kind) (input : Bytes) : MessageError :=
  match kind.length? with
  | some length =>
    if input.length ≠ length then .ofLengths input.length length
    else .invalidCodecId (codecOf input).toUInt32
  | none => .invalidCodecId (codecOf input).toUInt32

theorem Kind.foreignError_ne
    (kind : Kind)
    (input : Bytes) :
    kind.foreignError input ≠ .invalidMessageType := by
  rw [foreignError]
  split
  · split
    · exact MessageError.noConfusion
    · exact MessageError.noConfusion
  · exact MessageError.noConfusion

/-- The messages of a kind that has one length are read as messages of that length. -/
theorem Kind.exists_readFixed
    {kind : Kind}
    {length : Nat}
    (fixed : kind.length? = some length) :
    headerLength ≤ length ∧ ∃ (α : Type) (fields : Reading α) (change : α → Message),
      ∀ input, unpackAs kind input = change <$> readFixed length kind.type fields input := by
  cases kind with
  | register => cases fixed
  | conversion | registration | weight | uptime =>
      obtain rfl := Option.some.inj fixed
      exact ⟨by decide, _, _, _, fun _ => rfl⟩

theorem unpackAs_of_foreign
    (whole : headerLength ≤ input.length)
    (foreign : codecOf input ≠ codecId)
    (kind : Kind) :
    unpackAs kind input = .error (kind.foreignError input) := by
  cases fixed : kind.length? with
  | some length =>
      obtain ⟨sized, α, fields, change, read⟩ := kind.exists_readFixed fixed
      rw [read, readFixed_eq_ite sized, if_pos foreign, Kind.foreignError, fixed]
      dsimp only
      split
      · rfl
      · rfl
  | none =>
      cases kind with
      | register =>
          rw [unpackAs, unpackRegister, read_takeHeader_bind whole, if_pos foreign]
          rfl
      | _ => cases fixed

theorem unpackAs_of_otherType
    {kind : Kind}
    {length : Nat}
    (fixed : kind.length? = some length)
    (sized : input.length = length)
    (known : codecOf input = codecId)
    (other : typeOf input ≠ kind.type) :
    unpackAs kind input = .error .invalidMessageType := by
  obtain ⟨enough, α, fields, change, read⟩ := kind.exists_readFixed fixed
  rw [read, readFixed_eq_ite enough, if_neg (not_not.mpr sized), if_neg (not_not.mpr known),
    if_pos other]
  rfl

/-! ## Decoding -/

/-- The type ids of the five kinds are those up to the one of weight messages. -/
theorem kindFor?_eq_none_iff
    {type : UInt32}
    {length : Nat} :
    kindFor? type length = none ↔ weightType < type := by
  rw [kindFor?]
  split_ifs with isUptime isConversion isRegister isRegistration isWeight
  · simp [isUptime.1, uptimeType, weightType]
  · simp [isConversion, conversionType, weightType]
  · simp [isRegister, registerType, weightType]
  · simp [isRegistration, registrationType, weightType]
  · simp [isWeight, weightType]
  · rw [conversionType] at isConversion
    rw [registerType] at isRegister
    rw [registrationType] at isRegistration
    rw [weightType] at isWeight ⊢
    grind

theorem decode_of_foreign
    (whole : headerLength ≤ input.length)
    (foreign : codecOf input ≠ codecId) :
    decode input = .error (match kindFor? (typeOf input) input.length with
      | some kind => kind.foreignError input
      | none => .invalidMessageType) := by
  rw [decode_eq_unpackAs, if_neg (Nat.not_lt.mpr whole)]
  cases kindFor? (typeOf input) input.length with
  | some kind => exact unpackAs_of_foreign whole foreign kind
  | none => rfl

/-- Each of the five kinds refuses a foreign codec id whatever the type id is, and a message of its
length with another type id for the type id. Decoding refuses a foreign codec id as the kind does
that the type id names. It does so exactly for the type ids of the five kinds: for every other one
it blames the type id. -/
theorem codec_judged_first_iff (input : Bytes) :
    (headerLength ≤ input.length → codecOf input ≠ codecId →
      (∀ kind, unpackAs kind input = .error (kind.foreignError input)) ∧
        ((∃ kind : Kind, kindFor? (typeOf input) input.length = some kind ∧
            decode input = .error (kind.foreignError input)) ↔ typeOf input ≤ weightType) ∧
        (decode input = .error .invalidMessageType ↔ weightType < typeOf input)) ∧
      ∀ (kind : Kind) (length : Nat), kind.length? = some length → input.length = length →
        codecOf input = codecId → typeOf input ≠ kind.type →
          unpackAs kind input = .error .invalidMessageType := by
  refine ⟨fun whole foreign => ⟨unpackAs_of_foreign whole foreign, ?_, ?_⟩,
    fun kind length fixed sized known other => unpackAs_of_otherType fixed sized known other⟩
  · rw [decode_of_foreign whole foreign, ← UInt32.not_lt,
      ← @kindFor?_eq_none_iff (typeOf input) input.length]
    cases kindFor? (typeOf input) input.length with
    | some kind => simp
    | none => simp
  · rw [decode_of_foreign whole foreign, ← @kindFor?_eq_none_iff (typeOf input) input.length]
    cases kindFor? (typeOf input) input.length with
    | some kind => simpa using kind.foreignError_ne input
    | none => simp

/-- A header with codec id 1 and the type id of register messages. -/
def foreignRegister : Bytes :=
  [0, 1, 0, 0, 0, 1]

/-- A weight message with the length of a registration message. -/
def shortWeight : Bytes :=
  header weightType ++ Bytes.zeros 33

/-- A register message with a foreign codec id is refused for the codec id, and what has the length
of a registration message and another type for its type. -/
theorem samples_judged :
    decode foreignRegister = .error (.invalidCodecId 1) ∧
      unpackAs .registration shortWeight = .error .invalidMessageType := by
  refine ⟨?_, (codec_judged_first_iff shortWeight).2 .registration registrationLength rfl
    (by decide) (by decide) (by decide)⟩
  obtain ⟨_, foreignIff, _⟩ := (codec_judged_first_iff foreignRegister).1 (by decide) (by decide)
  obtain ⟨kind, found, refused⟩ := foreignIff.mpr (by decide)
  obtain rfl : Kind.register = kind := Option.some.inj found
  exact refused

/-- A header with codec id 1 and a type id that no kind has. -/
def strangeHeader : Bytes :=
  [0, 1, 0, 0, 0, 9]

/-- Decoding a header with a foreign codec id and a type id that no kind has does not name the codec
id. -/
theorem strangeHeader_hides_codec :
    headerLength ≤ strangeHeader.length ∧ codecOf strangeHeader ≠ codecId ∧
      decode strangeHeader = .error .invalidMessageType := by
  decide

end Message
end Valset
