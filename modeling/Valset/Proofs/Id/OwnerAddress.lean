import Valset.Proofs.Id.Bech32
import Valset.Proofs.Id.Texts

/-!
# Addresses of owners read back

An address is read from the text that it is formatted as, whatever the readable part is, since the
marker in front keeps the text from being taken for hexadecimal digits.
-/

namespace Valset
namespace OwnerAddress

variable
  {address : Address}
  {readable text : String}

/-- A text is formatted if the readable part is admitted. -/
theorem exists_format_eq_ok_iff :
    (∃ text, format address readable = .ok text) ↔ Bech32.Admitted readable.toList := by
  constructor
  · rintro ⟨text, formatted⟩
    obtain ⟨chars, encoded, -⟩ := bind_eq_ok_iff.mp formatted
    exact (Bech32.encode_eq_ok_iff.mp (mapError_eq_ok_iff.mp encoded)).1
  · intro admitted
    have encoded := (@Bech32.encode_eq_ok_iff readable.toList _
      (Bech32.toGroups address.bytes)).mpr ⟨admitted, rfl⟩
    exact ⟨_, bind_eq_ok_iff.mpr ⟨_, mapError_eq_ok_iff.mpr encoded, rfl⟩⟩

/-- What is read from a text depends on it without the blanks around it. -/
theorem parse_eq_of_trimChars
    {other : String}
    (same : Text.trimChars text.toList = Text.trimChars other.toList) :
    parse text = parse other := by
  rw [parse, parse, same]

/-- Blanks around a text without any are trimmed. -/
theorem parse_surrounded
    {before after : String}
    (plain : ∀ c ∈ text.toList, Text.isBlank c = false)
    (blankBefore : ∀ c ∈ before.toList, Text.isBlank c)
    (blankAfter : ∀ c ∈ after.toList, Text.isBlank c) :
    parse (before ++ text ++ after) = parse text := by
  apply parse_eq_of_trimChars
  rw [String.toList_append, String.toList_append, Text.trimChars_eq_self plain]
  exact Text.trimChars_surrounded blankBefore blankAfter
    (fun c first => plain c (List.mem_of_head? first))
    fun c last => plain c (List.mem_of_getLast? last)

/-- An address is read from its hexadecimal digits. -/
theorem parse_of_spells
    (spelled : Hex.Spells text.toList address.bytes) :
    parse text = .ok address := by
  have read := Hex.decodeMarked_eq_ok_iff.mpr spelled
  rw [parse, Text.trimChars_eq_self spelled.isBlank, String.ofList_toList]
  dsimp only
  rw [if_pos read.1]
  refine bind_eq_ok_iff.mpr ⟨address.bytes, mapError_eq_ok_iff.mpr read.2, ?_⟩
  rw [FixedBytes.ofBytes?_eq_some_iff.mpr rfl]
  rfl

/-- No character of a formatted text is a blank. -/
theorem isBlank_of_format
    (formatted : format address readable = .ok text) :
    ∀ c ∈ text.toList, Text.isBlank c = false := by
  obtain ⟨chars, encoded, written⟩ := bind_eq_ok_iff.mp formatted
  obtain rfl := Except.ok.inj written
  have visible := Bech32.visible_of_encode Bech32.lt_of_mem_groupsOfBits
    (mapError_eq_ok_iff.mp encoded)
  have plainMarker : ∀ c ∈ marker.toList, Text.isBlank c = false := by
    simpa using show (marker.toList.all fun c => !Text.isBlank c) by decide
  rw [String.toList_append, String.toList_ofList]
  exact List.forall_mem_append.mpr ⟨plainMarker, fun c present => (visible c present).isBlank⟩

/-- An address is read from the text that it is formatted as. -/
theorem parse_of_format
    (formatted : format address readable = .ok text) :
    parse text = .ok address := by
  have plain := isBlank_of_format formatted
  obtain ⟨chars, encoded, written⟩ := bind_eq_ok_iff.mp formatted
  obtain rfl := Except.ok.inj written
  have decoded := Bech32.decode_of_encode Bech32.lt_of_mem_groupsOfBits
    (mapError_eq_ok_iff.mp encoded)
  have shape : (marker ++ String.ofList chars).toList = marker.toList ++ chars := by
    rw [String.toList_append, String.toList_ofList]
  have dropped : Text.dropStart? marker.toList (marker.toList ++ chars) = some chars :=
    Text.dropStart?_eq_some_iff.mpr rfl
  rw [parse, Text.trimChars_eq_self plain, shape]
  dsimp only
  rw [if_neg (by exact Bool.false_ne_true), dropped, Option.getD_some, decoded]
  have regrouped := Bech32.ofGroups_toGroups address.bytes
  refine bind_eq_ok_iff.mpr ⟨_, rfl, ?_⟩
  refine bind_eq_ok_iff.mpr ⟨address.bytes, mapError_eq_ok_iff.mpr regrouped, ?_⟩
  rw [FixedBytes.ofBytes?_eq_some_iff.mpr rfl]
  rfl

/-- A formatted address is read back with blanks around it, whatever the readable part, and so is an
address in hexadecimal digits of either case. The readable parts that are formatted are those of
1 to 83 visible characters in one letter case. -/
theorem survives_formatting (address : Address) :
    (∀ readable text before after, format address readable = .ok text →
      (∀ c ∈ before.toList, Text.isBlank c) → (∀ c ∈ after.toList, Text.isBlank c) →
        parse (before ++ text ++ after) = .ok address) ∧
      (∀ readable, (∃ text, format address readable = .ok text) ↔
        Bech32.Admitted readable.toList) ∧
      ∀ text before after, Hex.Spells text.toList address.bytes →
        (∀ c ∈ before.toList, Text.isBlank c) → (∀ c ∈ after.toList, Text.isBlank c) →
          parse (before ++ text ++ after) = .ok address := by
  refine ⟨?_, fun readable => exists_format_eq_ok_iff, ?_⟩
  · intro readable text before after formatted blankBefore blankAfter
    rw [parse_surrounded (isBlank_of_format formatted) blankBefore blankAfter]
    exact parse_of_format formatted
  · intro text before after spelled blankBefore blankAfter
    rw [parse_surrounded spelled.isBlank blankBefore blankAfter]
    exact parse_of_spells spelled

/-- An address of equal bytes. -/
def sample : Address :=
  ⟨List.replicate 20 0x3c, rfl⟩

/-- A sample address comes back from both of its spellings, with blanks around them. -/
theorem sample_survives_formatting :
    (∃ text, format sample "P-" = .ok text ∧ parse ("\n " ++ text ++ "\t") = .ok sample) ∧
      parse (" " ++ "0x3C3c3C3c3c3C3c3c3c3c3c3c3c3c3c3c3c3c3c3C" ++ "") = .ok sample := by
  obtain ⟨formatted, accepted, hexadecimal⟩ := survives_formatting sample
  have admitted : Bech32.Admitted "P-".toList :=
    { nonempty := by decide
      short := by decide
      visible := by simp [Bech32.Visible]
      oneCase := .inl (by simp) }
  constructor
  · obtain ⟨text, written⟩ := (accepted "P-").mpr admitted
    exact ⟨text, written, formatted "P-" text "\n " "\t" written (List.all_eq_true.mp (by decide))
      (List.all_eq_true.mp (by decide))⟩
  · have spelled : Hex.Spells "0x3C3c3C3c3c3C3c3c3c3c3c3c3c3c3c3c3c3c3c3C".toList sample.bytes :=
      ⟨0, "3C3c3C3c3c3C3c3c3c3c3c3c3c3c3c3c3c3c3c3C".toList, by decide, by decide⟩
    exact hexadecimal _ " " "" spelled (List.all_eq_true.mp (by decide)) (List.forall_mem_nil _)

end OwnerAddress
end Valset
