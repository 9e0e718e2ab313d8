import Mathlib.Tactic.SplitIfs
import Valset.Text.Utf8

/-!
# Texts as bytes

A text is known from its UTF-8 form. A byte below 128 is a character of its own, so that bytes which
were cut off inside a character cannot be followed by one.
-/

namespace Valset

/-- The bytes that are still to be listed stand behind those listed already. -/
theorem toList_loop_eq
    (bytes : ByteArray)
    (index : Nat)
    (listed : List UInt8) :
    ByteArray.toList.loop bytes index listed = listed.reverse ++ bytes.data.toList.drop index := by
  fun_induction ByteArray.toList.loop bytes index listed with
  | case1 index listed inside inductionHypothesis =>
      have within : index < bytes.data.toList.length := inside
      have current : bytes.get! index = bytes.data.toList[index] :=
        getElem!_pos bytes.data index inside
      rw [inductionHypothesis, List.reverse_cons, List.append_assoc, List.singleton_append, current,
        List.drop_eq_getElem_cons within]
  | case2 index listed outside =>
      rw [List.drop_eq_nil_of_le (Nat.le_of_not_gt outside), List.append_nil]

theorem toList_eq_data_toList (bytes : ByteArray) : bytes.toList = bytes.data.toList :=
  toList_loop_eq bytes 0 []

theorem Bytes.ofText_ofList (chars : List Char) :
    Bytes.ofText (String.ofList chars) = chars.flatMap String.utf8EncodeChar := by
  rw [Bytes.ofText, String.toUTF8_eq_toByteArray, String.toByteArray_ofList, toList_eq_data_toList,
    List.utf8Encode, List.data_toByteArray]

theorem Bytes.ofText_eq_flatMap (text : String) :
    Bytes.ofText text = text.toList.flatMap String.utf8EncodeChar := by
  rw [← Bytes.ofText_ofList, String.ofList_toList]

@[simp] theorem Bytes.ofText_append (first second : String) :
    Bytes.ofText (first ++ second) = Bytes.ofText first ++ Bytes.ofText second := by
  simp [Bytes.ofText_eq_flatMap]

/-! ## Bytes of characters -/

/-- A byte below 128 is a character of its own. -/
theorem utf8EncodeChar_eq_of_mem
    {c : Char}
    {byte : UInt8}
    (present : byte ∈ String.utf8EncodeChar c)
    (low : byte < 0x80) :
    String.utf8EncodeChar c = [byte] := by
  have high (value : Nat) (bounds : 128 ≤ value ∧ value < 256) : byte ≠ UInt8.ofNat value := by
    rintro rfl
    rw [UInt8.lt_iff_toNat_lt, UInt8.toNat_ofNat', Nat.mod_eq_of_lt bounds.2] at low
    exact absurd low (by simpa using bounds.1)
  unfold String.utf8EncodeChar at present ⊢
  dsimp only at present ⊢
  split_ifs at present ⊢ <;> simp only [List.mem_cons, List.not_mem_nil, or_false] at present
  · rw [present]
  -- Every byte of a longer character has its highest bit set.
  · rcases present with same | same <;> exact absurd same (high _ (by omega))
  · rcases present with same | same | same <;> exact absurd same (high _ (by omega))
  · rcases present with same | same | same | same <;> exact absurd same (high _ (by omega))

/-- The first character of bytes is known from them. -/
theorem eq_of_utf8EncodeChar_append
    {first second : Char}
    {firstRest secondRest : Bytes}
    (same : String.utf8EncodeChar first ++ firstRest =
      String.utf8EncodeChar second ++ secondRest) :
    first = second := by
  have decoded (c : Char) (rest : Bytes) :
      ByteArray.utf8DecodeChar? (String.utf8EncodeChar c ++ rest).toByteArray 0 = some c := by
    rw [List.toByteArray_append]
    exact ByteArray.utf8DecodeChar?_utf8EncodeChar_append
  have both := decoded second secondRest
  rw [← same, decoded] at both
  exact Option.some.inj both

namespace Text

/-- A text is read back from its bytes. -/
theorem ofUtf8?_ofText (text : String) : ofUtf8? (Bytes.ofText text) = some text := by
  have bytes_eq : (⟨(Bytes.ofText text).toArray⟩ : ByteArray) = text.toUTF8 := by
    rw [Bytes.ofText, toList_eq_data_toList]
  rw [ofUtf8?, bytes_eq]
  exact dif_pos text.isValidUTF8

theorem ofText_injective : Function.Injective Bytes.ofText := by
  intro first second same
  simpa only [ofUtf8?_ofText, Option.some.injEq] using congrArg ofUtf8? same

theorem ofText_of_ofUtf8?
    {bytes : Bytes}
    {text : String}
    (valid : ofUtf8? bytes = some text) :
    Bytes.ofText text = bytes := by
  rw [ofUtf8?, String.fromUTF8?] at valid
  split_ifs at valid with isValid
  obtain rfl := Option.some.inj valid
  rw [Bytes.ofText, toList_eq_data_toList]
  rfl

end Text

/-- Bytes that were cut off from a text, and that go on with a byte below 128 to another text, were
cut off between two of its characters. -/
theorem exists_chars_of_cut
    {whole mixed : List Char}
    {cut rest : Bytes}
    {byte : UInt8}
    (prefixed : cut <+: whole.flatMap String.utf8EncodeChar)
    (low : byte < 0x80)
    (valid : mixed.flatMap String.utf8EncodeChar = cut ++ byte :: rest) :
    ∃ chars, chars <+: whole ∧ cut = chars.flatMap String.utf8EncodeChar := by
  induction mixed generalizing whole cut with
  | nil => simp at valid
  | cons first mixed inductionHypothesis =>
      rw [List.flatMap_cons] at valid
      -- A whole first character is also the first one of the text that was cut.
      have behindFirst
          {left : Bytes}
          (cutSplit : cut = String.utf8EncodeChar first ++ left)
          (mixedSplit : mixed.flatMap String.utf8EncodeChar = left ++ byte :: rest) :
          ∃ chars, chars <+: whole ∧ cut = chars.flatMap String.utf8EncodeChar := by
        obtain ⟨more, wholeSplit⟩ := prefixed
        rw [cutSplit, List.append_assoc] at wholeSplit
        cases whole with
        | nil =>
            have someBytes := Nat.ne_of_gt (Char.utf8Size_pos first)
            simp [← List.length_eq_zero_iff, someBytes] at wholeSplit
        | cons c whole =>
            rw [List.flatMap_cons] at wholeSplit
            obtain rfl := eq_of_utf8EncodeChar_append wholeSplit
            obtain ⟨chars, charsPrefix, rfl⟩ := inductionHypothesis
              ⟨more, List.append_cancel_left wholeSplit⟩ mixedSplit
            exact ⟨first :: chars, List.cons_prefix_cons.mpr ⟨rfl, charsPrefix⟩, cutSplit⟩
      rcases List.append_eq_append_iff.mp valid with
        ⟨left, cutSplit, mixedSplit⟩ | ⟨left, firstSplit, restSplit⟩
      · exact behindFirst cutSplit mixedSplit
      · cases left with
        | nil => exact behindFirst (by simp [firstSplit] : cut = _ ++ []) restSplit.symm
        | cons other left =>
            obtain ⟨rfl, -⟩ := List.cons.inj restSplit
            have alone := utf8EncodeChar_eq_of_mem (c := first) (by simp [firstSplit]) low
            rw [firstSplit] at alone
            obtain ⟨rfl, -⟩ : cut = [] ∧ left = [] := by
              simpa [List.append_eq_singleton_iff] using alone
            exact ⟨[], List.nil_prefix, rfl⟩

end Valset
