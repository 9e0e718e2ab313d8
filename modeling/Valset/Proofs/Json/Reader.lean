import Valset.Json.Reader
import Valset.Proofs.Bytes
import Valset.Proofs.Text.Hex

/-!
# Domain values read back from JSON

Byte strings, numbers of 32 and of 64 bits, lists and fields that may be left out are read back from
their forms in JSON.
-/

namespace Valset
namespace Json

theorem collectNibbles_digit
    {value : Nat}
    (small : value < 16)
    (rest : List Char) :
    collectNibbles none (Hex.digit value :: rest) = collectNibbles (some value) rest ∧
      ∀ high, collectNibbles (some high) (Hex.digit value :: rest) =
        (UInt8.ofNat (16 * high + value) :: ·) <$> collectNibbles none rest := by
  have each : ∀ value : Fin 16, Hex.digitValue? (Hex.digit value) = some value.val ∧
      ¬(Hex.digit value = ' ' ∨ Hex.digit value = '\r' ∨ Hex.digit value = '\n' ∨
        Hex.digit value = '\t') := by
    decide
  obtain ⟨read, notBlank⟩ := each ⟨value, small⟩
  constructor
  · rw [collectNibbles, if_neg notBlank, read]
    rfl
  · intro high
    rw [collectNibbles, if_neg notBlank, read]
    rfl

theorem collectNibbles_encodeChars (bytes : Bytes) :
    collectNibbles none (Hex.encodeChars bytes) = some bytes := by
  induction bytes with
  | nil => rfl
  | cons byte bytes inductionHypothesis =>
      have small := byte.toNat_lt
      have whole : UInt8.ofNat (16 * (byte.toNat / 16) + byte.toNat % 16) = byte := by
        rw [Nat.div_add_mod, UInt8.ofNat_toNat]
      change collectNibbles none (Hex.digit (byte.toNat / 16) :: Hex.digit (byte.toNat % 16) ::
        Hex.encodeChars bytes) = _
      rw [(collectNibbles_digit (by omega) _).1, (collectNibbles_digit (by omega) _).2, whole,
        inductionHypothesis]
      rfl

theorem nibbles_encodeChars (bytes : Bytes) :
    nibbles (Hex.encodeChars bytes) = some bytes := by
  have even : ¬(Hex.encodeChars bytes).length % 2 = 1 := by
    rw [Hex.length_encodeChars]
    omega
  rw [nibbles, if_neg even, collectNibbles_encodeChars]

/-- A byte string of fixed length is read back. -/
theorem readFixed_ofFixed
    {width : Nat}
    (fixed : FixedBytes width) :
    readFixed width (ofFixed fixed) = some fixed := by
  have chars_eq : Hex.dropMarker fixed.toHex.toList = Hex.encodeChars fixed.bytes :=
    Hex.dropMarker_encode0x fixed.bytes
  have size : (String.ofList (Hex.encodeChars fixed.bytes)).utf8ByteSize = 2 * width := by
    rw [← String.size_toByteArray, String.toByteArray_ofList, List.utf8Encode,
      List.size_toByteArray, Hex.length_utf8_encodeChars, fixed.length_bytes]
  have whole : FixedBytes.fit fixed.bytes = fixed :=
    (FixedBytes.fit_eq_iff fixed.length_bytes).mpr rfl
  rw [ofFixed, readFixed, chars_eq, if_pos size, nibbles_encodeChars, Option.map_eq_map,
    Option.map_some, whole]

theorem readAddress_ofFixed (address : Address) : readAddress (ofFixed address) = some address :=
  readFixed_ofFixed address

/-- A byte string of any length is read back. -/
theorem readBytes_ofBytes (bytes : Bytes) : readBytes (ofBytes bytes) = some bytes := by
  rw [ofBytes, readBytes, Hex.decode0x_encode0x]
  rfl

/-- A 32-bit number is read back. -/
theorem readUInt32_ofNat (value : UInt32) : readUInt32 (ofNat value.toNat) = some value := by
  have small : value.toNat < UInt32.size := value.toNat_lt
  simp [readUInt32, readNatBelow, ofNat, small]

/-- A 64-bit number is read back. -/
theorem readUInt64_ofUInt64 (value : UInt64) : readUInt64 (ofUInt64 value) = some value := by
  have small : value.toNat < UInt64.size := value.toNat_lt
  simp [readUInt64, readNatBelow, ofUInt64, ofNat, small]

/-- A list is read back item by item. -/
theorem readList_map
    {α : Type}
    {read : Reader α}
    {write : α → Json}
    (back : ∀ value, read (write value) = some value)
    (values : List α) :
    readList read (.array (values.map write)) = some values := by
  induction values with
  | nil => rfl
  | cons value values inductionHypothesis =>
      rw [readList] at inductionHypothesis ⊢
      rw [List.map_cons, List.mapM_cons, back, inductionHypothesis]
      rfl

/-- A field of an object that is left out where there is no value is read back. -/
theorem Source.optional_eq_some
    {α : Type}
    {fields : List (String × Json)}
    {name : String}
    {read : Reader α}
    (write : α → Json)
    {value : Option α}
    (held : fields.lookup name = value.map write)
    (back : ∀ value, readOption read (write value) = some (some value)) :
    (⟨fields, false⟩ : Source).optional name read = some value := by
  rw [optional, value?, held]
  cases value with
  | none => rfl
  | some value => exact back value

end Json
end Valset
