import Valset.Bytes.Hex
import Valset.Proofs.Text.Utf8

/-!
# Hexadecimal text read back

Two digits stand for each byte of a byte string, and the byte string is read back from them.
-/

namespace Valset
namespace Hex

/-- A digit is one byte of text, which is read as the value of the digit. -/
theorem exists_byte_of_digit
    {value : Nat}
    (small : value < 16) :
    ∃ byte, String.utf8EncodeChar (digit value) = [byte] ∧ byteDigitValue? byte = some value := by
  have each : ∀ value : Fin 16,
      String.utf8EncodeChar (digit value) = [(digit value).val.toUInt8] ∧
        byteDigitValue? (digit value).val.toUInt8 = some value.val := by
    decide
  exact ⟨_, each ⟨value, small⟩⟩

/-- What holds for each digit holds for the characters of digits. -/
theorem forall_mem_encodeChars
    {holds : Char → Prop}
    (each : ∀ value : Fin 16, holds (digit value))
    (bytes : Bytes) :
    ∀ c ∈ encodeChars bytes, holds c := by
  intro c present
  obtain ⟨byte, -, inByte⟩ := List.mem_flatMap.mp present
  have small := byte.toNat_lt
  simp only [byteDigits, List.mem_cons, List.not_mem_nil, or_false] at inByte
  rcases inByte with rfl | rfl
  · exact each ⟨byte.toNat / 16, by omega⟩
  · exact each ⟨byte.toNat % 16, by omega⟩

theorem toList_encode0x (bytes : Bytes) :
    (encode0x bytes).toList = '0' :: 'x' :: encodeChars bytes := by
  simp [encode0x, encode]

/-- The text of a byte string begins with the two digits of the first byte. -/
theorem exists_utf8_encodeChars_cons (byte : UInt8) (bytes : Bytes) :
    ∃ high low, (encodeChars (byte :: bytes)).flatMap String.utf8EncodeChar =
        high :: low :: (encodeChars bytes).flatMap String.utf8EncodeChar ∧
      byteDigitValue? high = some (byte.toNat / 16) ∧
      byteDigitValue? low = some (byte.toNat % 16) := by
  have small := byte.toNat_lt
  have smallHigh : byte.toNat / 16 < 16 := by omega
  have smallLow : byte.toNat % 16 < 16 := by omega
  obtain ⟨high, highEncoded, highRead⟩ := exists_byte_of_digit smallHigh
  obtain ⟨low, lowEncoded, lowRead⟩ := exists_byte_of_digit smallLow
  refine ⟨high, low, ?_, highRead, lowRead⟩
  simp [encodeChars, byteDigits, highEncoded, lowEncoded]

theorem length_utf8_encodeChars (bytes : Bytes) :
    ((encodeChars bytes).flatMap String.utf8EncodeChar).length = 2 * bytes.length := by
  induction bytes with
  | nil => rfl
  | cons byte bytes inductionHypothesis =>
      obtain ⟨high, low, shape, _, _⟩ := exists_utf8_encodeChars_cons byte bytes
      rw [shape, List.length_cons, List.length_cons, inductionHypothesis, List.length_cons]
      omega

theorem length_encodeChars (bytes : Bytes) : (encodeChars bytes).length = 2 * bytes.length := by
  induction bytes with
  | nil => rfl
  | cons byte bytes inductionHypothesis =>
      change (byteDigits byte ++ encodeChars bytes).length = _
      rw [List.length_append, inductionHypothesis, List.length_cons, Nat.mul_succ, Nat.add_comm]
      rfl

theorem decodeBytes_encodeChars
    (bytes : Bytes)
    (position : Nat) :
    decodeBytes position ((encodeChars bytes).flatMap String.utf8EncodeChar) = .ok bytes := by
  induction bytes generalizing position with
  | nil => rfl
  | cons byte bytes inductionHypothesis =>
      obtain ⟨high, low, shape, highRead, lowRead⟩ := exists_utf8_encodeChars_cons byte bytes
      have whole : UInt8.ofNat (16 * (byte.toNat / 16) + byte.toNat % 16) = byte := by
        rw [Nat.div_add_mod, UInt8.ofNat_toNat]
      rw [shape, decodeBytes, highRead, lowRead]
      simp only [inductionHypothesis, whole]
      rfl

/-- Bytes are read back from their digits. -/
theorem decode_encode_eq_ok (bytes : Bytes) : decode (encode bytes) = .ok bytes := by
  rw [decode, encode, Bytes.ofText_ofList]
  have even : ((encodeChars bytes).flatMap String.utf8EncodeChar).length % 2 ≠ 1 := by
    rw [length_utf8_encodeChars]
    omega
  rw [if_neg even]
  exact decodeBytes_encodeChars bytes 0

theorem dropMarker_encode0x (bytes : Bytes) :
    dropMarker (encode0x bytes).toList = encodeChars bytes := by
  rw [toList_encode0x, dropMarker]

/-- Bytes are read back from their digits behind a marker. -/
theorem decode0x_encode0x (bytes : Bytes) : decode0x (encode0x bytes) = .ok bytes := by
  rw [decode0x, dropMarker_encode0x]
  exact decode_encode_eq_ok bytes

/-- Digits do not begin with a marker. -/
theorem dropMarkers_encodeChars (bytes : Bytes) :
    dropMarkers (encodeChars bytes) = encodeChars bytes := by
  have plain := @forall_mem_encodeChars (· ≠ 'x') (by decide) bytes
  unfold dropMarkers
  split
  · next shape => exact absurd rfl (plain 'x' (by simp [shape]))
  · rfl

theorem decodeMarked_encode0x (bytes : Bytes) : decodeMarked (encode0x bytes) = .ok bytes := by
  rw [decodeMarked, toList_encode0x, dropMarkers, dropMarkers_encodeChars]
  exact decode_encode_eq_ok bytes

theorem encode0x_inj {first second : Bytes} :
    encode0x first = encode0x second ↔ first = second := by
  refine ⟨fun same => ?_, congrArg encode0x⟩
  have digits : encode first = encode second := (String.append_right_inj _).mp same
  have decoded := congrArg decode digits
  rw [decode_encode_eq_ok, decode_encode_eq_ok] at decoded
  exact Except.ok.inj decoded

/-! ## Numbers -/

theorem digitChar_inj
    {first second : Nat}
    (small : first < 16)
    (smallToo : second < 16)
    (same : Nat.digitChar first = Nat.digitChar second) :
    first = second := by
  have each : ∀ first second : Fin 16,
      Nat.digitChar first = Nat.digitChar second → first = second := by
    decide
  exact congrArg Fin.val (each ⟨first, small⟩ ⟨second, smallToo⟩ same)

/-- No two numbers have the same digits. -/
theorem toDigits_inj
    {first second : Nat}
    (same : Nat.toDigits 16 first = Nat.toDigits 16 second) :
    first = second := by
  induction first using Nat.strongRecOn generalizing second with
  | ind first inductionHypothesis =>
      rw [Nat.toDigits_eq_if (by decide), Nat.toDigits_eq_if (n := second) (by decide)] at same
      split_ifs at same with small smallToo smallToo
      · exact digitChar_inj small smallToo (List.singleton_inj.mp same)
      · have joined : [] ++ [Nat.digitChar first] =
            Nat.toDigits 16 (second / 16) ++ [Nat.digitChar (second % 16)] := same
        exact absurd (List.append_inj' joined rfl).1.symm Nat.toDigits_ne_nil
      · have joined : Nat.toDigits 16 (first / 16) ++ [Nat.digitChar (first % 16)] =
            [] ++ [Nat.digitChar second] := same
        exact absurd (List.append_inj' joined rfl).1 Nat.toDigits_ne_nil
      · obtain ⟨front, last⟩ := List.append_inj' same rfl
        have quotients := inductionHypothesis (first / 16) (by omega) front
        have remainders := digitChar_inj (Nat.mod_lt _ (by decide)) (Nat.mod_lt _ (by decide))
          (List.singleton_inj.mp last)
        omega

theorem ofNat_inj {first second : Nat} : ofNat first = ofNat second ↔ first = second := by
  refine ⟨fun same => ?_, congrArg ofNat⟩
  exact toDigits_inj (String.ofList_injective ((String.append_right_inj _).mp same))

end Hex

theorem FixedBytes.toHex_inj
    {width : Nat}
    {first second : FixedBytes width} :
    first.toHex = second.toHex ↔ first = second := by
  rw [toHex, toHex, Hex.encode0x_inj, FixedBytes.mk.injEq]

end Valset
