import Valset.Id.Json
import Valset.Proofs.Text.Hex
import Valset.Proofs.Text.Spelling

/-!
# Identifiers read back from their texts

The text of an identifier has no blanks and one marker, so that nothing of it is lost when it is
read.
-/

namespace Valset

/-- The text of bytes has no blanks. -/
theorem FixedBytes.isBlank_toHex
    {width : Nat}
    (fixed : FixedBytes width) :
    ∀ c ∈ fixed.toHex.toList, Text.isBlank c = false := by
  rw [toHex, Hex.toList_encode0x]
  intro c present
  rcases List.mem_cons.mp present with rfl | present
  · rfl
  · rcases List.mem_cons.mp present with rfl | inDigits
    · rfl
    · exact @Hex.forall_mem_encodeChars (Text.isBlank · = false) (by decide) _ c inDigits

/-- Bytes of the right number are read back from their text. -/
theorem readIdBytes_toHex
    {width : Nat}
    (fixed : FixedBytes width) :
    readIdBytes width fixed.toHex = .ok fixed := by
  have marked : Text.startsWith ['0', 'x'] fixed.toHex.toList := by
    rw [FixedBytes.toHex, Hex.toList_encode0x]
    rfl
  have decoded : Hex.decodeMarked fixed.toHex = .ok fixed.bytes :=
    Hex.decodeMarked_encode0x fixed.bytes
  rw [readIdBytes, Text.trim_eq_self fixed.isBlank_toHex]
  simp [marked, decoded, FixedBytes.ofBytes?, fixed.length_bytes, bind, Except.bind, pure,
    Except.pure, Except.mapError]

namespace Id

variable {kind : IdKind}

theorem parse_display (id : Id kind) : parse id.display = .ok id := by
  rw [parse, display, readIdBytes_toHex]
  rfl

/-- An identifier is read back from its value in JSON. -/
theorem ofJson?_toJson (id : Id kind) : ofJson? id.toJson = some id := by
  rw [toJson, ofJson?, parse_display]
  rfl

end Id
end Valset
