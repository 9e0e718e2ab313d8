import Valset.Proofs.Event.Lines
import Valset.Proofs.Except
import Valset.Proofs.Json.Canonical
import Valset.Proofs.Json.Compact
import Valset.Proofs.Json.Reader

/-!
# Records of logs are legible

A record whose fields are canonical and not nested too deep is read back from its line. The record
of an event that was found in a log is such a record, whatever the log holds.
-/

namespace Valset

namespace AbiType

/-- A number of a type has no more bits than the type. -/
def Holds : AbiType → AbiValue → Prop
  | .uint bits, .uint value => value.toNat < 2 ^ bits
  | _, _ => True

/-- A value of a type is read back from JSON. -/
theorem Holds.readable_toJson
    {type : AbiType}
    {value : AbiValue}
    (holds : type.Holds value)
    (depth : Nat) :
    (value.toJson type).Readable (depth + 1) := by
  cases value with
  | address | bool | bytes | string | array | tuple => trivial
  | fixedBytes bytes =>
      refine Json.readableItems_iff.mpr fun item present => ?_
      obtain ⟨byte, -, rfl⟩ := List.mem_map.mp present
      exact Json.readable_ofNat (byte.toNat_lt.trans (by decide)) depth
  | uint value =>
      cases type with
      | uint bits =>
          rw [AbiValue.toJson]
          split
          · rename_i narrow
            exact Json.readable_ofNat
              (Nat.lt_of_lt_of_le holds (Nat.pow_le_pow_right (by decide) narrow)) _
          · trivial
      | address | bool | fixedBytes | bytes | string | array | tuple => trivial

end AbiType

namespace Abi

/-- What is decoded as a value of a type is one. -/
theorem holds_of_decodeValue
    {type : AbiType}
    {data : Bytes}
    {offset next : Nat}
    {value : AbiValue}
    (decoded : decodeValue type data offset = .ok (value, next)) :
    type.Holds value := by
  cases type with
  | uint bits =>
      obtain ⟨word, -, result⟩ := bind_eq_ok_iff.mp decoded
      obtain ⟨rfl, -⟩ := Prod.mk.inj (Except.ok.inj result)
      refine (Nat.mod_le _ _).trans_lt ?_
      exact Nat.mod_lt _ (Nat.pow_pos (by decide))
  | address | bool | fixedBytes | bytes | string | array | tuple => trivial

theorem holds_of_decodeValues
    {types : List AbiType}
    {data : Bytes}
    {offset next : Nat}
    {values : List AbiValue}
    (decoded : decodeValues types data offset = .ok (values, next)) :
    List.Forall₂ AbiType.Holds types values := by
  induction types generalizing offset values with
  | nil =>
      obtain ⟨rfl, -⟩ := Prod.mk.inj (Except.ok.inj decoded)
      exact .nil
  | cons type types inductionHypothesis =>
      obtain ⟨⟨value, middle⟩, first, decoded⟩ := bind_eq_ok_iff.mp decoded
      obtain ⟨⟨rest, last⟩, further, result⟩ := bind_eq_ok_iff.mp decoded
      obtain ⟨rfl, rfl⟩ := Prod.mk.inj (Except.ok.inj result)
      exact .cons (holds_of_decodeValue first) (inductionHypothesis further)

/-- Decoded values are values of their types. -/
theorem holds_of_decode
    {types : List AbiType}
    {data : Bytes}
    {values : List AbiValue}
    (decoded : decode types data = .ok values) :
    List.Forall₂ AbiType.Holds types values := by
  rw [decode] at decoded
  split at decoded
  · exact nomatch decoded
  · obtain ⟨⟨values, last⟩, all, rfl⟩ := map_eq_ok_iff.mp decoded
    exact holds_of_decodeValues all

end Abi

namespace Event

/-- An event each field of which holds a value of its type. -/
def WellTyped (event : Event) : Prop :=
  List.Forall₂ (fun field value => field.type.Holds value) event.kind.fields event.values

theorem holds_arrange
    {fields : List EventField}
    {topics data : List AbiValue}
    (topicsHold : List.Forall₂ AbiType.Holds
      ((fields.filter (·.indexed)).map (·.type)) topics)
    (dataHold : List.Forall₂ AbiType.Holds
      ((fields.filter fun field => !field.indexed).map (·.type)) data) :
    List.Forall₂ (fun field value => field.type.Holds value) fields
      (arrange fields topics data) := by
  induction fields generalizing topics data with
  | nil => exact .nil
  | cons field fields inductionHypothesis =>
      rw [List.filter_cons] at topicsHold dataHold
      cases indexed : field.indexed with
      | true =>
          rw [indexed] at topicsHold dataHold
          cases topicsHold with
          | cons holds topicsHold =>
              rw [arrange.eq_def]
              simp only [indexed]
              exact .cons holds (inductionHypothesis topicsHold dataHold)
      | false =>
          rw [indexed] at topicsHold dataHold
          cases dataHold with
          | cons holds dataHold =>
              rw [arrange.eq_def]
              simp only [indexed]
              exact .cons holds (inductionHypothesis topicsHold dataHold)

/-- The events that are found in logs are well-typed. -/
theorem wellTyped_of_ofLog?
    {log : Log}
    {event : Event}
    (found : ofLog? log = some event) :
    event.WellTyped := by
  obtain ⟨kind, -, recognised⟩ := List.exists_of_findSome?_eq_some found
  have recognised : ofLogAs kind log = .ok event := by
    revert recognised
    rw [ofLogAs?]
    cases ofLogAs kind log <;> simp [Except.toOption]
  rw [ofLogAs] at recognised
  split at recognised
  · exact nomatch recognised
  · rename_i signature topics _
    split at recognised
    · exact nomatch recognised
    · obtain ⟨indexed, topicsDecoded, recognised⟩ := bind_eq_ok_iff.mp recognised
      dsimp only at recognised
      split at recognised
      · exact nomatch recognised
      · obtain ⟨data, dataDecoded, result⟩ := bind_eq_ok_iff.mp recognised
        obtain rfl := Except.ok.inj result
        exact holds_arrange (Abi.holds_of_decode topicsDecoded) (Abi.holds_of_decode dataDecoded)

/-- The fields of a well-typed event are readable. -/
theorem WellTyped.readable_fieldsJson
    {event : Event}
    (wellTyped : event.WellTyped)
    (depth : Nat) :
    event.fieldsJson.Readable (depth + 2) := by
  apply Json.readable_canonical
  have all : ∀ {fields : List EventField} {values : List AbiValue},
      List.Forall₂ (fun field value => field.type.Holds value) fields values →
      Json.ReadableFields (depth + 1)
        (fields.zipWith (fun field value => (field.name, value.toJson field.type)) values) := by
    intro fields values hold
    induction hold with
    | nil => trivial
    | cons holds _ inductionHypothesis => exact ⟨holds.readable_toJson depth, inductionHypothesis⟩
  exact all wellTyped

end Event

namespace EventRecord

theorem lineBreak_notMem_of_printable
    {chars : List Char}
    (printable : Json.Printable chars) :
    lineBreak ∉ chars.flatMap String.utf8EncodeChar := by
  intro present
  obtain ⟨c, inChars, inBytes⟩ := List.mem_flatMap.mp present
  have alone : String.utf8EncodeChar c ++ [] = String.utf8EncodeChar '\n' ++ [] :=
    congrArg (· ++ []) (utf8EncodeChar_eq_of_mem inBytes (by decide))
  obtain rfl := eq_of_utf8EncodeChar_append alone
  exact absurd (printable _ inChars) (by decide)

/-- A record is read back from its value in JSON. -/
theorem ofJson?_toJson
    {record : EventRecord}
    (canonical : record.fields.IsCanonical) :
    ofJson? record.toJson = some record := by
  have unchanged := Json.canonical_eq_self canonical
  obtain ⟨fields, written⟩ : ∃ fields, record.toJson = .object fields := ⟨_, rfl⟩
  have onlyOnce : Json.source? fieldNames record.toJson = some ⟨fields, false⟩ := by
    rcases record with
      ⟨address, blockNumber, blockHash, transactionHash, logIndex, event, fields, _ | _⟩ <;>
    cases written <;> rfl
  obtain rfl : fields = _ := (Json.object.inj written).symm
  rw [ofJson?, onlyOnce]
  rcases record with
    ⟨address, blockNumber, blockHash, transactionHash, logIndex, event, fields, _ | _⟩ <;>
  simp [Json.Source.required, Json.Source.defaulted, Json.Source.value?, List.lookup_cons,
    Json.readAddress, Json.readHash32, Json.readFixed_ofFixed, Json.readUInt64_ofUInt64,
    Json.readString, Json.readBool, unchanged]

/-- A record is readable if its fields are. -/
theorem readable_toJson
    {record : EventRecord}
    {depth : Nat}
    (readable : record.fields.Readable depth) :
    record.toJson.Readable (depth + 1) := by
  have written :
      Json.ReadableFields depth (if record.removed then [("removed", .bool true)] else []) := by
    split <;> simp [Json.ReadableFields, Json.Readable]
  exact ⟨trivial, Json.readable_ofUInt64 _ _, trivial, trivial, Json.readable_ofUInt64 _ _, trivial,
    readable, written⟩

/-- A record whose fields are canonical and not nested too deep is legible. -/
theorem legible_of_readable
    {record : EventRecord}
    (canonical : record.fields.IsCanonical)
    (readable : record.fields.Readable 126) :
    record.Legible := by
  have whole := readable_toJson readable
  constructor
  · rw [lineBytes, Json.compact, Bytes.ofText_ofList]
    exact lineBreak_notMem_of_printable (Json.printable_compactChars whole)
  · rw [ofLine?, lineBytes, Text.ofUtf8?_ofText, Option.bind_eq_bind, Option.bind_some,
      Json.parse_compact whole]
    exact ofJson?_toJson canonical

/-- A record with the fields of a well-typed event is legible. -/
theorem legible_of_wellTyped
    {record : EventRecord}
    {event : Event}
    (wellTyped : event.WellTyped)
    (fields_eq : record.fields = event.fieldsJson.hexify) :
    record.Legible := by
  apply legible_of_readable <;> rw [fields_eq]
  · exact Json.isCanonical_hexify (Json.isCanonical_canonical _)
  · exact Json.readable_hexify (wellTyped.readable_fieldsJson 124)

/-- The record of an event in a log is legible. -/
theorem legible_of_ofEvent?
    {log : Log}
    {event : Event}
    {record : EventRecord}
    (found : Event.ofLog? log = some event)
    (made : ofEvent? event log = some record) :
    record.Legible := by
  obtain ⟨index, -, same⟩ := Option.bind_eq_some_iff.mp made
  obtain rfl := Option.some.inj same
  exact legible_of_wellTyped (Event.wellTyped_of_ofLog? found) rfl

/-- The record of an event that a subscription delivers is legible. -/
theorem legible_of_ofLive?
    {log : Log}
    {live : LiveEvent}
    {record : EventRecord}
    (found : LiveEvent.ofLog? log = some live)
    (made : ofLive? live = some record) :
    record.Legible := by
  obtain ⟨event, eventFound, rfl⟩ := Option.map_eq_some_iff.mp found
  obtain ⟨standing, ofEvent, same⟩ := Option.bind_eq_some_iff.mp made
  obtain rfl := Option.some.inj same
  obtain ⟨index, -, rest⟩ := Option.bind_eq_some_iff.mp ofEvent
  obtain rfl := Option.some.inj rest
  exact legible_of_wellTyped (Event.wellTyped_of_ofLog? eventFound) rfl

end EventRecord
end Valset
