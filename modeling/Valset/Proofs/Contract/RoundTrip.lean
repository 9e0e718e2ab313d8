import Valset.Contract.Structs
import Valset.Proofs.Abi.RoundTrip

/-!
# Structures are read back

Each field of a structure stands in its tuple as a value of its own type, and the fields are taken
from the tuple in the order in which they were put there. So a structure comes back from its
encoding, however long its byte strings and lists are, as long as the encoding keeps to the offsets
and lengths that are read at all.
-/

namespace Valset

/-! ## Fields -/

namespace AbiValue

section Numbers

variable
  {bits number : Nat}

theorem toNat_ofNat_of_lt
    (narrow : bits ≤ 256)
    (small : number < 2 ^ bits) :
    (BitVec.ofNat 256 number).toNat = number :=
  Nat.mod_eq_of_lt (Nat.lt_of_lt_of_le small (Nat.pow_le_pow_right (by decide) narrow))

/-- A number that has no more bits than its type is one of its values. -/
theorem admits_ofNat
    (narrow : bits ≤ 256)
    (small : number < 2 ^ bits) :
    (AbiType.uint bits).Admits (.uint (BitVec.ofNat 256 number)) :=
  .uint (by rwa [toNat_ofNat_of_lt narrow small])

theorem admits_uint (value : U256) : (AbiType.uint 256).Admits (.uint value) :=
  .uint value.isLt

theorem admits_ofUInt64 (value : UInt64) : (AbiType.uint 64).Admits (.ofUInt64 value) :=
  admits_ofNat (by decide) value.toNat_lt

theorem admits_ofUInt32 (value : UInt32) : (AbiType.uint 32).Admits (.ofUInt32 value) :=
  admits_ofNat (by decide) value.toNat_lt

theorem admits_ofUInt16 (value : UInt16) : (AbiType.uint 16).Admits (.ofUInt16 value) :=
  admits_ofNat (by decide) value.toNat_lt

theorem admits_ofUInt8 (value : UInt8) :
    (AbiType.uint 8).Admits (.uint (BitVec.ofNat 256 value.toNat)) :=
  admits_ofNat (by decide) value.toNat_lt

@[simp] theorem uint64?_ofUInt64 (value : UInt64) : (ofUInt64 value).uint64? = some value := by
  change some (UInt64.ofNat (BitVec.ofNat 256 value.toNat).toNat) = _
  rw [toNat_ofNat_of_lt (by decide) value.toNat_lt, UInt64.ofNat_toNat]

@[simp] theorem uint32?_ofUInt32 (value : UInt32) : (ofUInt32 value).uint32? = some value := by
  change some (UInt32.ofNat (BitVec.ofNat 256 value.toNat).toNat) = _
  rw [toNat_ofNat_of_lt (by decide) value.toNat_lt, UInt32.ofNat_toNat]

@[simp] theorem uint16?_ofUInt16 (value : UInt16) : (ofUInt16 value).uint16? = some value := by
  change some (UInt16.ofNat (BitVec.ofNat 256 value.toNat).toNat) = _
  rw [toNat_ofNat_of_lt (by decide) value.toNat_lt, UInt16.ofNat_toNat]

@[simp] theorem uint8?_ofUInt8 (value : UInt8) :
    (uint (BitVec.ofNat 256 value.toNat)).uint8? = some value := by
  change some (UInt8.ofNat (BitVec.ofNat 256 value.toNat).toNat) = _
  rw [toNat_ofNat_of_lt (by decide) value.toNat_lt, UInt8.ofNat_toNat]

end Numbers

section Fixed

variable
  {width : Nat}

/-- Bytes of a fixed length are a value of their type. -/
theorem admits_ofFixed
    (positive : 0 < width)
    (fits : width ≤ 32)
    (fixed : FixedBytes width) :
    (AbiType.fixedBytes width).Admits (.ofFixed fixed) := by
  rcases fixed with ⟨bytes, rfl⟩
  exact .fixedBytes (List.ne_nil_of_length_pos positive) fits

theorem admits_ofHash (hash : Hash32) : (AbiType.fixedBytes 32).Admits (.ofFixed hash) :=
  admits_ofFixed (by decide) (by decide) hash

/-- Bytes of a fixed length are read from their word. -/
@[simp] theorem fixed?_ofFixed (fixed : FixedBytes width) :
    (ofFixed fixed).fixed? width = some fixed := by
  rw [ofFixed, fixed?, FixedBytes.ofBytes?, dif_pos fixed.length_bytes]

end Fixed

/-- An address is read from its word. -/
theorem address?_address (value : Address) : (address value).address? = some value := rfl

section Lists

variable
  {α : Type}
  {item : AbiType}
  {toAbi : α → AbiValue}
  {ofAbi? : AbiValue → Option α}

/-- A list of values is a value of the type of lists. -/
theorem admits_map
    (admits : ∀ value, item.Admits (toAbi value))
    (values : List α) :
    (AbiType.array item).Admits (.array (values.map toAbi)) := by
  refine .array fun value present => ?_
  obtain ⟨source, -, rfl⟩ := List.mem_map.mp present
  exact admits source

/-- The members of a list come back when each of them does. -/
theorem mapM_map_eq_some
    (back : ∀ value, ofAbi? (toAbi value) = some value)
    (values : List α) :
    (values.map toAbi).mapM ofAbi? = some values := by
  induction values with
  | nil => rfl
  | cons value values inductionHypothesis =>
      rw [List.map_cons, List.mapM_cons, back, inductionHypothesis]
      rfl

end Lists

end AbiValue

open AbiValue

/-! ## Structures -/

namespace Owner

theorem admits_toAbi (owner : Owner) : abiType.Admits owner.toAbi :=
  .tuple (List.cons_ne_nil _ _)
    (.cons (admits_ofUInt32 _) (.cons (admits_map .address _) .nil))

/-- An owner is read from its tuple. -/
@[simp] theorem ofAbi?_toAbi (owner : Owner) : ofAbi? owner.toAbi = some owner := by
  have addresses := mapM_map_eq_some address?_address owner.addresses
  simp [ofAbi?, toAbi, array?, addresses, -List.mapM_map]

end Owner

namespace InitialValidator

theorem admits_toAbi (validator : InitialValidator) : abiType.Admits validator.toAbi :=
  .tuple (List.cons_ne_nil _ _)
    (.cons (.bytes _) (.cons (.bytes _) (.cons (admits_ofUInt64 _) .nil)))

/-- An initial validator is read from its tuple. -/
@[simp] theorem ofAbi?_toAbi (validator : InitialValidator) :
    ofAbi? validator.toAbi = some validator := by
  simp [ofAbi?, toAbi, bytes?]

end InitialValidator

namespace ConversionData

theorem admits_toAbi (data : ConversionData) : abiType.Admits data.toAbi :=
  .tuple (List.cons_ne_nil _ _)
    (.cons (admits_ofHash _) (.cons (admits_ofHash _) (.cons (.address _)
      (.cons (admits_map InitialValidator.admits_toAbi _) .nil))))

/-- Conversion data is read from its tuple. -/
@[simp] theorem ofAbi?_toAbi (data : ConversionData) : ofAbi? data.toAbi = some data := by
  have validators := mapM_map_eq_some InitialValidator.ofAbi?_toAbi data.initialValidators
  simp [ofAbi?, toAbi, address?, array?, validators, -List.mapM_map]

end ConversionData

namespace ValidationPeriod

theorem admits_toAbi (period : ValidationPeriod) : abiType.Admits period.toAbi :=
  .tuple (List.cons_ne_nil _ _)
    (.cons (admits_ofHash _) (.cons (.bytes _) (.cons (.bytes _) (.cons (admits_ofUInt64 _)
      (.cons (Owner.admits_toAbi _) (.cons (Owner.admits_toAbi _)
        (.cons (admits_ofUInt64 _) .nil)))))))

/-- A validation period is read from its tuple. -/
@[simp] theorem ofAbi?_toAbi (period : ValidationPeriod) : ofAbi? period.toAbi = some period := by
  simp [ofAbi?, toAbi, bytes?]

end ValidationPeriod

namespace StakingSettings

theorem admits_toAbi (settings : StakingSettings) : abiType.Admits settings.toAbi :=
  .tuple (List.cons_ne_nil _ _)
    (.cons (.address _) (.cons (admits_uint _) (.cons (admits_uint _) (.cons (admits_ofUInt64 _)
      (.cons (admits_ofUInt16 _) (.cons (admits_ofUInt8 _) (.cons (admits_uint _)
        (.cons (.address _) (.cons (admits_ofHash _) .nil)))))))))

/-- Settings are read from their tuple. -/
@[simp] theorem ofAbi?_toAbi (settings : StakingSettings) :
    ofAbi? settings.toAbi = some settings := by
  simp [ofAbi?, toAbi, address?, uint?]

end StakingSettings

/-! ## Structures in the terms of a contract -/

/-- The structures that are written in the terms of a contract. An owner is known to both staking
managers and the message library, conversion data to the validator manager and the library, a
validation period to the library alone, and settings to both staking managers. -/
inductive ContractStruct : Type → Type
  | nativeOwner : ContractStruct Owner
  | erc20Owner : ContractStruct Owner
  | libraryOwner : ContractStruct Owner
  | managerConversionData : ContractStruct ConversionData
  | libraryConversionData : ContractStruct ConversionData
  | libraryPeriod : ContractStruct ValidationPeriod
  | nativeSettings : ContractStruct StakingSettings
  | erc20Settings : ContractStruct StakingSettings

namespace ContractStruct

variable
  {α : Type}

/-- The tuple of a structure. -/
def abiType : ContractStruct α → AbiType
  | nativeOwner | erc20Owner | libraryOwner => Owner.abiType
  | managerConversionData | libraryConversionData => ConversionData.abiType
  | libraryPeriod => ValidationPeriod.abiType
  | nativeSettings | erc20Settings => StakingSettings.abiType

/-- A value as the tuple of a structure. -/
def toAbi : ContractStruct α → α → AbiValue
  | nativeOwner | erc20Owner | libraryOwner => Owner.toAbi
  | managerConversionData | libraryConversionData => ConversionData.toAbi
  | libraryPeriod => ValidationPeriod.toAbi
  | nativeSettings | erc20Settings => StakingSettings.toAbi

/-- The value in a tuple. -/
def ofAbi? : ContractStruct α → AbiValue → Option α
  | nativeOwner | erc20Owner | libraryOwner => Owner.ofAbi?
  | managerConversionData | libraryConversionData => ConversionData.ofAbi?
  | libraryPeriod => ValidationPeriod.ofAbi?
  | nativeSettings | erc20Settings => StakingSettings.ofAbi?

/-- A value in the terms of a contract is one of the type that the contract names. -/
theorem admits_toAbi
    (struct : ContractStruct α)
    (value : α) :
    struct.abiType.Admits (struct.toAbi value) := by
  cases struct with
  | nativeOwner | erc20Owner | libraryOwner => exact value.admits_toAbi
  | managerConversionData | libraryConversionData => exact value.admits_toAbi
  | libraryPeriod => exact value.admits_toAbi
  | nativeSettings | erc20Settings => exact value.admits_toAbi

/-- A value is read from its tuple in the terms of any contract. -/
theorem ofAbi?_toAbi
    (struct : ContractStruct α)
    (value : α) :
    struct.ofAbi? (struct.toAbi value) = some value := by
  cases struct with
  | nativeOwner | erc20Owner | libraryOwner => exact value.ofAbi?_toAbi
  | managerConversionData | libraryConversionData => exact value.ofAbi?_toAbi
  | libraryPeriod => exact value.ofAbi?_toAbi
  | nativeSettings | erc20Settings => exact value.ofAbi?_toAbi

/-- A value comes back from its encoding in the terms of any contract, be it encoded as one value or
by its fields. Where byte strings or lists occur, the encoding must have less than `2 ^ 32` bytes,
because no larger offset or length is decoded. -/
theorem decode_encode_toAbi
    (struct : ContractStruct α)
    (value : α)
    (short : struct.abiType.isDynamic = true →
      (Abi.encode [struct.toAbi value]).length < UInt32.size) :
    Abi.decode [struct.abiType] (Abi.encode [struct.toAbi value]) = .ok [struct.toAbi value] ∧
      Abi.decodeStruct struct.abiType (Abi.encodeStruct (struct.toAbi value)) =
        .ok (struct.toAbi value) ∧
      struct.ofAbi? (struct.toAbi value) = some value := by
  have admits := struct.admits_toAbi value
  exact ⟨Abi.decode_encode_singleton admits short,
    Abi.decodeStruct_encodeStruct admits short, struct.ofAbi?_toAbi value⟩

/-- A validation period with owners of different sizes. -/
def samplePeriod : ValidationPeriod where
  subnetId := .zero
  nodeId := [6, 7]
  blsPublicKey := Bytes.zeros 48
  registrationExpiry := 1700000000
  remainingBalanceOwner := ⟨2, [.ofNat 1, .ofNat 2]⟩
  disableOwner := ⟨0, []⟩
  weight := 100

/-- The sample comes back from its encoding in the terms of the library. -/
theorem samplePeriod_decode_encode :
    (Abi.encode [samplePeriod.toAbi]).length < UInt32.size ∧
      Abi.decode [ValidationPeriod.abiType] (Abi.encode [samplePeriod.toAbi]) =
        .ok [samplePeriod.toAbi] ∧
      ValidationPeriod.ofAbi? samplePeriod.toAbi = some samplePeriod := by
  have short : (Abi.encode [samplePeriod.toAbi]).length < UInt32.size := by decide +kernel
  obtain ⟨decoded, -, back⟩ := decode_encode_toAbi libraryPeriod samplePeriod fun _ => short
  exact ⟨short, decoded, back⟩

end ContractStruct
end Valset
