import Valset.Proofs.Id
import Valset.Proofs.Id.Cb58
import Valset.Proofs.Json.RoundTrip
import Valset.Proofs.Text.Spelling

/-!
# Identifiers and their texts

Which texts are read as an identifier. Behind a marker stand the hexadecimal digits of its bytes,
and a text without one is the cb58 text of them. No text is both, since no digit of base 58 begins a
marker.
-/

namespace Valset

/-- What holds for each digit of base 58 holds for the characters of a cb58 text. -/
theorem Cb58.forall_mem_encode
    {holds : Char → Prop}
    (each : ∀ value : Fin 58, holds (Base58.digit value))
    (payload : Bytes) :
    ∀ c ∈ (encode payload).toList, holds c := by
  intro c present
  rw [encode, String.toList_ofList, Base58.encodeChars_eq_rebase] at present
  obtain ⟨value, inDigits, rfl⟩ := List.mem_map.mp present
  exact each ⟨value, Base58.rebase_lt (by decide) value inDigits⟩

/-- No cb58 text spells bytes in hexadecimal digits. -/
theorem not_spells_encode (bytes payload : Bytes) :
    ¬ Hex.Spells (Cb58.encode payload).toList bytes := by
  rintro ⟨further, digits, shape, -⟩
  have plain := @Cb58.forall_mem_encode (· ≠ '0') (by decide) payload
  refine plain '0' ?_ rfl
  rw [shape, Hex.markers_succ]
  exact List.mem_cons_self

namespace FixedBytes

variable
  {width : Nat}
  {fixed : FixedBytes width}

theorem ofBytes?_eq_some_iff {bytes : Bytes} :
    ofBytes? bytes = some fixed ↔ bytes = fixed.bytes := by
  rw [ofBytes?]
  constructor
  · intro made
    split at made
    · rw [← Option.some.inj made]
    · cases made
  · rintro rfl
    rw [dif_pos fixed.length_bytes]

/-- A text, without blanks around it, that denotes bytes: their hexadecimal digits behind markers,
or their cb58 text. -/
def Denoted (fixed : FixedBytes width) (text : String) : Prop :=
  Hex.Spells text.toList fixed.bytes ∨ text = Cb58.encode fixed.bytes

/-- No hyphen stands in a text that denotes bytes. -/
theorem Denoted.hyphen_not_mem
    {text : String}
    (denoted : fixed.Denoted text) :
    '-' ∉ text.toList := by
  rcases denoted with spelled | rfl
  · intro present
    rcases spelled.of_mem present with same | ⟨value, read⟩
    · exact absurd same (by decide)
    · cases read
  · exact fun present =>
      absurd rfl (@Cb58.forall_mem_encode (· ≠ '-') (by decide) _ _ present)

theorem denoted_encode (fixed : FixedBytes width) : fixed.Denoted (Cb58.encode fixed.bytes) :=
  .inr rfl

theorem denoted_toHex (fixed : FixedBytes width) : fixed.Denoted fixed.toHex :=
  .inl (Hex.spells_encode0x fixed.bytes)

end FixedBytes

/-- Bytes are taken as they are if there are as many as they should be. -/
theorem bind_fixed_eq_ok_iff
    {width : Nat}
    {fixed : FixedBytes width}
    {step : Except IdError Bytes} :
    (do
      let bytes ← step
      match FixedBytes.ofBytes? bytes with
      | some fixed => return fixed
      | none => throw (.length width bytes.length) : Except IdError (FixedBytes width)) =
        .ok fixed ↔
      step = .ok fixed.bytes := by
  cases step with
  | error cause => exact iff_of_false nofun nofun
  | ok bytes =>
      rw [Except.ok.injEq, ← FixedBytes.ofBytes?_eq_some_iff]
      change (match FixedBytes.ofBytes? bytes with
        | some fixed => pure fixed
        | none => throw (.length width bytes.length) : Except IdError (FixedBytes width)) = _ ↔ _
      cases (FixedBytes.ofBytes? bytes : Option (FixedBytes width)) with
      | none => exact iff_of_false nofun nofun
      | some found => exact ⟨fun same => congrArg some (Except.ok.inj same),
          fun same => congrArg Except.ok (Option.some.inj same)⟩

/-- Bytes are read from the texts that denote them. -/
theorem readIdBytes_eq_ok_iff
    {width : Nat}
    {text : String}
    {fixed : FixedBytes width} :
    readIdBytes width text = .ok fixed ↔ fixed.Denoted (Text.trim text) := by
  rw [readIdBytes, FixedBytes.Denoted, ← Hex.decodeMarked_eq_ok_iff]
  dsimp only
  split
  · next marked =>
    refine bind_fixed_eq_ok_iff.trans (mapError_eq_ok_iff.trans ?_)
    rw [and_iff_right marked]
    refine (or_iff_left fun isCb58 => ?_).symm
    obtain ⟨rest, shape⟩ := Text.startsWith_iff.mp marked
    have plain := @Cb58.forall_mem_encode (· ≠ '0') (by decide) fixed.bytes
    refine plain '0' ?_ rfl
    rw [← isCb58, shape]
    exact List.mem_cons_self
  · next unmarked =>
    refine bind_fixed_eq_ok_iff.trans (Cb58.decode_eq_ok_iff.trans ?_)
    exact (or_iff_right fun both => unmarked both.1).symm

theorem Cb58.isBlank_encode (payload : Bytes) :
    ∀ c ∈ (encode payload).toList, Text.isBlank c = false := by
  have visible := @forall_mem_encode (fun c => 0x20 < c.toNat ∧ c.toNat < 0x7f)
    (by decide) payload
  exact fun c present => Text.isBlank_eq_false (visible c present).1 (visible c present).2

/-! ## Texts of identifiers -/

namespace Id

variable
  {kind : IdKind}
  {id : Id kind}
  {text : String}

theorem parse_eq_ok_iff : parse text = .ok id ↔ id.hash.Denoted (Text.trim text) := by
  rw [parse, map_eq_ok_iff, ← readIdBytes_eq_ok_iff]
  constructor
  · rintro ⟨fixed, read, rfl⟩
    exact read
  · exact fun read => ⟨id.hash, read, rfl⟩

/-- An identifier is read back from the text of its value in JSON. -/
theorem ofJson?_compact (id : Id kind) :
    (Json.parse id.toJson.compact).bind ofJson? = some id := by
  have value : Json.parse id.toJson.compact = some id.toJson := Json.parse_string id.display
  rw [value, Option.bind_some, ofJson?_toJson]

theorem parse_toCb58 (id : Id kind) : parse id.toCb58 = .ok id := by
  rw [parse_eq_ok_iff, toCb58, Text.trim_eq_self (Cb58.isBlank_encode _)]
  exact id.hash.denoted_encode

end Id

namespace NodeId

variable
  {node : NodeId}
  {text : String}

theorem parse_eq_ok_iff :
    parse text = .ok node ↔
      ∃ rest, (Text.trim text = rest ∨ Text.trim text = marker ++ rest) ∧
        node.hash.Denoted (Text.trim rest) := by
  have ofStem {chars : List Char} :
      (NodeId.mk <$> readIdBytes 20 (String.ofList chars)) = .ok node ↔
        node.hash.Denoted (Text.trim (String.ofList chars)) := by
    rw [map_eq_ok_iff, ← readIdBytes_eq_ok_iff]
    constructor
    · rintro ⟨fixed, read, rfl⟩
      exact read
    · exact fun read => ⟨node.hash, read, rfl⟩
  rw [parse, ofStem]
  cases dropped : Text.dropStart? marker.toList (Text.trimChars text.toList) with
  | none =>
      rw [Option.getD_none]
      constructor
      · exact fun denoted => ⟨_, .inl rfl, denoted⟩
      · rintro ⟨rest, rfl | marked, denoted⟩
        · exact denoted
        · have split := congrArg String.toList marked
          rw [Text.toList_trim, String.toList_append] at split
          exact nomatch dropped.symm.trans (Text.dropStart?_eq_some_iff.mpr split)
  | some stem =>
      rw [Option.getD_some]
      have split : Text.trim text = marker ++ String.ofList stem := by
        rw [Text.trim, Text.dropStart?_eq_some_iff.mp dropped, String.ofList_append,
          String.ofList_toList]
      constructor
      · exact fun denoted => ⟨_, .inr split, denoted⟩
      · rintro ⟨rest, rfl | marked, denoted⟩
        -- With the marker in front it denotes nothing.
        · refine absurd ?_ denoted.hyphen_not_mem
          rw [split, Text.toList_trim]
          refine Text.mem_trimChars ?_ (by decide)
          rw [String.toList_append]
          exact List.mem_append_left _ (by decide)
        · rw [split] at marked
          rwa [(String.append_right_inj _).mp marked]

/-- A node id is read from a text that denotes it, with or without the marker. -/
theorem parse_of_denoted
    (denoted : node.hash.Denoted text)
    (plain : ∀ c ∈ text.toList, Text.isBlank c = false) :
    parse text = .ok node ∧ parse (marker ++ text) = .ok node := by
  have trimmed := Text.trim_eq_self plain
  have plainMarker : ∀ c ∈ marker.toList, Text.isBlank c = false := by
    simpa using show (marker.toList.all fun c => !Text.isBlank c) by decide
  have trimmedMarked : Text.trim (marker ++ text) = marker ++ text := by
    apply Text.trim_eq_self
    rw [String.toList_append]
    exact fun c present => (List.mem_append.mp present).elim (plainMarker c) (plain c)
  rw [parse_eq_ok_iff, parse_eq_ok_iff]
  exact ⟨⟨text, .inl trimmed, trimmed.symm ▸ denoted⟩,
    ⟨text, .inr trimmedMarked, trimmed.symm ▸ denoted⟩⟩

theorem parse_display (node : NodeId) : parse node.display = .ok node :=
  (parse_of_denoted node.hash.denoted_encode (Cb58.isBlank_encode _)).2

theorem parse_encode (node : NodeId) : parse (Cb58.encode node.bytes) = .ok node := by
  have denoted : node.hash.Denoted (Cb58.encode node.bytes) := node.hash.denoted_encode
  exact (parse_of_denoted denoted (Cb58.isBlank_encode _)).1

theorem parse_toHex (node : NodeId) : parse node.hash.toHex = .ok node :=
  (parse_of_denoted node.hash.denoted_toHex node.hash.isBlank_toHex).1

theorem ofJson?_toJson (node : NodeId) : ofJson? node.toJson = some node := by
  rw [toJson, ofJson?, parse_display]
  rfl

/-- A node id is read back from the text of its value in JSON. -/
theorem ofJson?_compact (node : NodeId) :
    (Json.parse node.toJson.compact).bind ofJson? = some node := by
  have value : Json.parse node.toJson.compact = some node.toJson := Json.parse_string node.display
  rw [value, Option.bind_some, ofJson?_toJson]

end NodeId

/-- Each identifier is read from its texts and from its value in JSON, and from no other text than
its digits behind markers or its cb58 text, with blanks around it. No text is of both forms. -/
theorem texts_correspond :
    (∀ (kind : IdKind) (id : Id kind),
      Id.parse id.display = .ok id ∧ Id.parse id.toCb58 = .ok id ∧
        Id.parse id.hash.toHex = .ok id ∧ Id.ofJson? id.toJson = some id ∧
        (Json.parse id.toJson.compact).bind Id.ofJson? = some id) ∧
      (∀ node : NodeId,
        NodeId.parse node.display = .ok node ∧
          NodeId.parse (Cb58.encode node.bytes) = .ok node ∧
          NodeId.parse node.hash.toHex = .ok node ∧ NodeId.ofJson? node.toJson = some node ∧
          (Json.parse node.toJson.compact).bind NodeId.ofJson? = some node) ∧
      (∀ (kind : IdKind) (text : String) (id : Id kind),
        Id.parse text = .ok id ↔
          Hex.Spells (Text.trim text).toList id.hash.bytes ∨ Text.trim text = id.toCb58) ∧
      (∀ (text : String) (node : NodeId),
        NodeId.parse text = .ok node ↔
          ∃ rest, (Text.trim text = rest ∨ Text.trim text = NodeId.marker ++ rest) ∧
            (Hex.Spells (Text.trim rest).toList node.bytes ∨
              Text.trim rest = Cb58.encode node.bytes)) ∧
      ∀ text bytes payload, ¬ (Hex.Spells text.toList bytes ∧ text = Cb58.encode payload) := by
  refine ⟨fun kind id => ?_, fun node => ?_, fun kind text id => Id.parse_eq_ok_iff,
    fun text node => NodeId.parse_eq_ok_iff, ?_⟩
  · exact ⟨id.parse_display, id.parse_toCb58, id.parse_display, id.ofJson?_toJson,
      id.ofJson?_compact⟩
  · exact ⟨node.parse_display, node.parse_encode, node.parse_toHex, node.ofJson?_toJson,
      node.ofJson?_compact⟩
  · rintro text bytes payload ⟨spelled, rfl⟩
    exact not_spells_encode bytes payload spelled

end Valset
