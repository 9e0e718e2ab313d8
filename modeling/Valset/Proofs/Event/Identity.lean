import Valset.Proofs.Event.Fields
import Valset.Proofs.Event.Place
import Valset.Proofs.Json.Canonical
import Valset.Proofs.Text.Hex

/-!
# Records tell events apart

The record of an event loses nothing. Its name tells the kind of the event, and each field stands in
the record under its name, in a form from which the value of the field follows: a number as a
number or as text, an array of bytes as text.
-/

namespace Valset

/-! ## Values in records -/

namespace Json

/-- Bytes as an array of numbers. -/
def bytesAsNumbers (bytes : Bytes) : List Json :=
  bytes.map fun byte => .ofNat byte.toNat

theorem byte?_ofNat (byte : UInt8) : byte? (.ofNat byte.toNat) = some byte := by
  have small := byte.toNat_lt
  rw [ofNat, byte?, if_pos ⟨by omega, by omega⟩, Int.toNat_natCast, UInt8.ofNat_toNat]

/-- Bytes written as numbers are read back. -/
theorem mapM_byte?_bytesAsNumbers (bytes : Bytes) :
    (bytesAsNumbers bytes).mapM byte? = some bytes := by
  induction bytes with
  | nil => rfl
  | cons byte bytes inductionHypothesis =>
      rw [bytesAsNumbers, List.map_cons, List.mapM_cons, byte?_ofNat]
      change (some byte).bind _ = _
      rw [Option.bind_some, ← bytesAsNumbers, inductionHypothesis]
      rfl

theorem canonicalItems_bytesAsNumbers (bytes : Bytes) :
    canonicalItems (bytesAsNumbers bytes) = bytesAsNumbers bytes := by
  induction bytes with
  | nil => rfl
  | cons byte bytes inductionHypothesis =>
      exact congrArg (Json.ofNat byte.toNat :: ·) inductionHypothesis

theorem hexifyItems_bytesAsNumbers (bytes : Bytes) :
    hexifyItems (bytesAsNumbers bytes) = bytesAsNumbers bytes := by
  induction bytes with
  | nil => rfl
  | cons byte bytes inductionHypothesis =>
      exact congrArg (Json.ofNat byte.toNat :: ·) inductionHypothesis

/-- Different bytes are written as different numbers. -/
theorem bytesAsNumbers_inj {first second : Bytes} :
    bytesAsNumbers first = bytesAsNumbers second ↔ first = second := by
  refine ⟨fun same => ?_, congrArg bytesAsNumbers⟩
  have read := congrArg (List.mapM byte?) same
  rw [mapM_byte?_bytesAsNumbers, mapM_byte?_bytesAsNumbers] at read
  exact Option.some.inj read

/-- An array of bytes becomes text when it is as long as a node id or a hash. -/
theorem hexify_bytesAsNumbers (bytes : Bytes) :
    hexify (.array (bytesAsNumbers bytes)) =
      if bytes.length = 20 ∨ bytes.length = 32 then .ofBytes bytes
      else .array (bytesAsNumbers bytes) := by
  have length_eq : (bytesAsNumbers bytes).length = bytes.length := List.length_map _
  rw [hexify, byteString?, length_eq, mapM_byte?_bytesAsNumbers, hexifyItems_bytesAsNumbers]
  split_ifs <;> rfl

end Json

namespace AbiValue

/-- A value as it stands in a record. -/
def inRecord (type : AbiType) (value : AbiValue) : Json :=
  (value.toJson type).canonical.hexify

theorem inRecord_ofFixed
    {width : Nat}
    (fixed : FixedBytes width) :
    (ofFixed fixed).inRecord (.fixedBytes width) =
      if width = 20 ∨ width = 32 then .ofBytes fixed.bytes
      else .array (Json.bytesAsNumbers fixed.bytes) := by
  have shown : ((ofFixed fixed).toJson (.fixedBytes width)).canonical =
      .array (Json.bytesAsNumbers fixed.bytes) :=
    congrArg Json.array (Json.canonicalItems_bytesAsNumbers fixed.bytes)
  rw [inRecord, shown, Json.hexify_bytesAsNumbers, fixed.length_bytes]

theorem inRecord_uint
    (bits : Nat)
    (number : U256) :
    (uint number).inRecord (.uint bits) =
      if bits ≤ 64 then .ofNat number.toNat else .ofU256 number := by
  rw [inRecord, toJson]
  split_ifs <;> rfl

/-- Two values of one type that look alike in a record are the same. -/
theorem eq_of_inRecord_eq
    {type : AbiType}
    {first second : AbiValue}
    (word : type.isWord = true)
    (admits : type.Admits first)
    (admitsToo : type.Admits second)
    (same : first.inRecord type = second.inRecord type) :
    first = second := by
  cases type with
  | address =>
      obtain ⟨address⟩ := admits
      obtain ⟨other⟩ := admitsToo
      exact congrArg AbiValue.address (FixedBytes.toHex_inj.mp (Json.string.inj same))
  | bool =>
      obtain ⟨flag⟩ := admits
      obtain ⟨other⟩ := admitsToo
      exact congrArg AbiValue.bool (Json.bool.inj same)
  | uint bits =>
      obtain ⟨number, rfl, -⟩ := exists_uint_of_admits admits
      obtain ⟨other, rfl, -⟩ := exists_uint_of_admits admitsToo
      rw [inRecord_uint, inRecord_uint] at same
      refine congrArg AbiValue.uint (BitVec.eq_of_toNat_eq ?_)
      split at same
      · exact Int.ofNat.inj (Json.Number.whole.inj (Json.number.inj same))
      · exact Hex.ofNat_inj.mp (Json.string.inj same)
  | fixedBytes width =>
      obtain ⟨fixed, rfl⟩ := exists_ofFixed_of_admits admits
      obtain ⟨other, rfl⟩ := exists_ofFixed_of_admits admitsToo
      rw [inRecord_ofFixed, inRecord_ofFixed] at same
      refine congrArg AbiValue.fixedBytes ?_
      split at same
      · exact Hex.encode0x_inj.mp (Json.string.inj same)
      · exact Json.bytesAsNumbers_inj.mp (Json.array.inj same)
  | bytes | string | array | tuple => exact nomatch word

end AbiValue

/-! ## Kinds and fields in records -/

namespace EventKind

/-- No two kinds of events have the same name. -/
theorem name_injective
    {first second : EventKind}
    (same : first.name = second.name) :
    first = second := by
  have distinct : (all.map name).Nodup := by decide
  exact List.inj_on_of_nodup_map distinct (mem_all first) (mem_all second) same

/-- The fields of an event differ in name. -/
theorem nodup_names (kind : EventKind) : (kind.fields.map (·.name)).Nodup := by
  cases kind <;> decide

end EventKind

namespace Event

/-- The fields of an event under their names. -/
def namedFields (fields : List EventField) (values : List AbiValue) : List (String × Json) :=
  fields.zipWith (fun field value => (field.name, value.toJson field.type)) values

section NamedFields

variable
  {fields : List EventField}
  {first second : List AbiValue}

theorem map_fst_namedFields
    {values : List AbiValue}
    (admits : AbiType.AdmitsAll (fields.map (·.type)) values) :
    (namedFields fields values).map (·.1) = fields.map (·.name) := by
  induction fields generalizing values with
  | nil => rfl
  | cons field fields inductionHypothesis =>
      cases admits with
      | cons _ rest => exact congrArg (field.name :: ·) (inductionHypothesis rest)

theorem lookup_namedFields_of_notMem
    {values : List AbiValue}
    (admits : AbiType.AdmitsAll (fields.map (·.type)) values)
    {name : String}
    (absent : name ∉ fields.map (·.name)) :
    (namedFields fields values).lookup name = none := by
  rw [← map_fst_namedFields admits] at absent
  refine List.lookup_eq_none_iff.mpr fun field present => bne_iff_ne.mpr ?_
  rintro rfl
  exact absent (List.mem_map_of_mem present)

/-- In a record the value of a field stands under the name of the field. -/
theorem lookup_hexify_namedFields
    {values : List AbiValue}
    (distinct : (fields.map (·.name)).Nodup)
    (admits : AbiType.AdmitsAll (fields.map (·.type)) values)
    (name : String) :
    (Json.hexifyFields (Json.canonicalFields (namedFields fields values) [])).lookup name =
      ((namedFields fields values).lookup name).map fun json => json.canonical.hexify := by
  rw [Json.lookup_hexifyFields, Json.lookup_canonicalFields
    (by rwa [map_fst_namedFields admits]), List.lookup_nil, Option.or_none, Option.map_map]
  rfl

/-- Fields that look alike in records hold the same values. -/
theorem values_eq_of_lookup_eq
    (words : ∀ field ∈ fields, field.type.isWord = true)
    (distinct : (fields.map (·.name)).Nodup)
    (admits : AbiType.AdmitsAll (fields.map (·.type)) first)
    (admitsToo : AbiType.AdmitsAll (fields.map (·.type)) second)
    (same : ∀ name,
      ((namedFields fields first).lookup name).map (fun json => json.canonical.hexify) =
        ((namedFields fields second).lookup name).map fun json => json.canonical.hexify) :
    first = second := by
  induction fields generalizing first second with
  | nil =>
      cases admits
      cases admitsToo
      rfl
  | cons field fields inductionHypothesis =>
      obtain ⟨notInRest, distinctRest⟩ := List.nodup_cons.mp distinct
      rcases admits with _ | ⟨admitsHead, admitsRest⟩
      rcases admitsToo with _ | ⟨admitsHeadToo, admitsRestToo⟩
      rename_i value values other others
      have named (values : List AbiValue) (value : AbiValue) (name : String) :
          (namedFields (field :: fields) (value :: values)).lookup name =
            if name = field.name then some (value.toJson field.type)
            else (namedFields fields values).lookup name :=
        Json.lookup_cons_eq_ite _ _ name
      simp only [named] at same
      have heads := same field.name
      rw [if_pos rfl, if_pos rfl] at heads
      obtain rfl := AbiValue.eq_of_inRecord_eq (words field List.mem_cons_self) admitsHead
        admitsHeadToo (Option.some.inj heads)
      refine congrArg (value :: ·) (inductionHypothesis
        (fun later present => words later (List.mem_cons_of_mem _ present)) distinctRest
        admitsRest admitsRestToo fun name => ?_)
      by_cases again : name = field.name
      · obtain rfl := again
        rw [lookup_namedFields_of_notMem admitsRest notInRest,
          lookup_namedFields_of_notMem admitsRestToo notInRest]
      · have others := same name
        rwa [if_neg again, if_neg again] at others

end NamedFields

/-- Events of one kind whose fields look alike in records are the same. -/
theorem eq_of_hexify_fieldsJson_eq
    {first second : Event}
    (proper : first.Proper)
    (properToo : second.Proper)
    (kinds : first.kind = second.kind)
    (same : first.fieldsJson.hexify = second.fieldsJson.hexify) :
    first = second := by
  obtain ⟨kind, values⟩ := first
  obtain ⟨_, others⟩ := second
  obtain rfl : kind = _ := kinds
  refine congrArg (Event.mk kind) ?_
  refine values_eq_of_lookup_eq kind.isWord_of_mem_fields kind.nodup_names proper properToo
    fun name => ?_
  rw [← lookup_hexify_namedFields kind.nodup_names proper,
    ← lookup_hexify_namedFields kind.nodup_names properToo]
  exact congrArg (List.lookup name) (Json.object.inj same)

end Event

/-! ## Records -/

/-- An event record loses nothing. Any two events of the chain have records, and these are the same
exactly when the events are the same with the same values in their fields, both stand or both were
taken back, and they have the same place in the chain. -/
theorem EventRecord.ofLive_loses_nothing
    {first second : LiveEvent}
    (proper : first.event.Proper)
    (properToo : second.event.Proper)
    (indexable : first.Indexable)
    (indexableToo : second.Indexable) :
    ∃ record other, EventRecord.ofLive? first = some record ∧
      EventRecord.ofLive? second = some other ∧
      (record = other ↔
        first.event.kind = second.event.kind ∧ first.event.values = second.event.values ∧
          first.removed = second.removed ∧ first.log.address = second.log.address ∧
          first.log.blockNumber = second.log.blockNumber ∧
          first.log.blockHash = second.log.blockHash ∧
          first.log.transactionHash = second.log.transactionHash ∧
          first.log.logIndex = second.log.logIndex) := by
  refine ⟨_, _, ofLive?_eq_some_iff.mpr ⟨_, Log.index?_of_indexable indexable, rfl⟩,
    ofLive?_eq_some_iff.mpr ⟨_, Log.index?_of_indexable indexableToo, rfl⟩, ?_⟩
  constructor
  · intro same
    have kinds : first.event.kind = second.event.kind :=
      EventKind.name_injective (congrArg EventRecord.event same)
    have events := Event.eq_of_hexify_fieldsJson_eq proper properToo kinds
      (congrArg EventRecord.fields same)
    have indices : (UInt64.ofNat first.log.logIndex.toNat).toNat =
        (UInt64.ofNat second.log.logIndex.toNat).toNat :=
      congrArg (fun record => record.logIndex.toNat) same
    rw [UInt64.toNat_ofNat_of_lt' indexable, UInt64.toNat_ofNat_of_lt' indexableToo] at indices
    exact ⟨kinds, congrArg Event.values events, congrArg EventRecord.removed same,
      congrArg EventRecord.address same, congrArg EventRecord.blockNumber same,
      congrArg EventRecord.blockHash same, congrArg EventRecord.transactionHash same,
      BitVec.eq_of_toNat_eq indices⟩
  · rintro ⟨kinds, values, flags, addresses, blocks, blockHashes, transactions, indices⟩
    have events : first.event = second.event :=
      congrArg₂ Event.mk kinds values
    rw [events, flags, addresses, blocks, blockHashes, transactions, indices]

/-- The sample member with another node id. -/
def Event.otherMember : Event where
  kind := .registeredInitialValidator
  values := [.fixedBytes (Bytes.zeros 32), .fixedBytes (List.replicate 20 8), .uint 100]

/-- Members with different node ids have different records. -/
theorem EventRecord.ofLive_ne_otherMember :
    EventRecord.ofLive? ⟨Event.sampleMember, Event.sampleLog⟩ ≠
      EventRecord.ofLive? ⟨Event.otherMember, Event.sampleLog⟩ := by
  have proper : Event.otherMember.Proper :=
    .cons (@AbiType.Admits.fixedBytes (Bytes.zeros 32) (by decide) (by decide))
      (.cons (@AbiType.Admits.fixedBytes (List.replicate 20 8) (by decide) (by decide))
        (.cons (.uint (by decide)) .nil))
  intro same
  obtain ⟨record, other, made, madeToo, loses_nothing⟩ :=
    @EventRecord.ofLive_loses_nothing ⟨Event.sampleMember, Event.sampleLog⟩
      ⟨Event.otherMember, Event.sampleLog⟩ Event.sampleMember_proper proper (by decide)
      (by decide)
  rw [made, madeToo] at same
  obtain ⟨-, values, -⟩ := loses_nothing.mp (Option.some.inj same)
  have nodeIds := AbiValue.fixedBytes.inj (List.cons.inj (List.cons.inj values).2).1
  exact absurd nodeIds (by decide)

end Valset
