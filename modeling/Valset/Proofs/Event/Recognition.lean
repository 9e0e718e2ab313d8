import Mathlib.Data.List.Nodup
import Valset.Event
import Valset.Proofs.Abi.Word
import Valset.Proofs.Hash.Keccak256

/-!
# Events are recognised as themselves

A contract puts the indexed values of an event into words of their own behind the hash of its
declaration, and encodes the others in the data. From such a log each value comes back to its place.
No two events have the same hash of their declaration, so that no log is read as two of them and it
does not matter in which order they are tried.
-/

namespace Valset

namespace EventKind

theorem isWord_of_mem_fields (kind : EventKind) :
    ∀ field ∈ kind.fields, field.type.isWord = true := by
  cases kind <;> simp [fields, idTopic, topic, plain, AbiType.isWord]

theorem isWord_of_mem_filter
    (kind : EventKind)
    (keep : EventField → Bool) :
    ∀ type ∈ (kind.fields.filter keep).map (·.type), type.isWord = true := by
  intro type present
  obtain ⟨field, kept, rfl⟩ := List.mem_map.mp present
  exact kind.isWord_of_mem_fields field (List.mem_filter.mp kept).1

theorem mem_all (kind : EventKind) : kind ∈ all := by
  cases kind <;> decide

/-- The text that is hashed for the first topic. -/
def declaration (kind : EventKind) : String :=
  AbiType.signature kind.name (kind.fields.map (·.type))

/-- The hashes of the declarations of events differ. -/
theorem nodup_hash_declaration :
    (all.map fun kind => (Keccak256.Rows.hash (Bytes.ofText kind.declaration)).bytes).Nodup := by
  -- In rows a hash is evaluated ten times as fast as on an array of lanes.
  decide +kernel

/-- No two events have the same first topic. -/
theorem signatureHash_injective
    {first second : EventKind}
    (same : first.signatureHash = second.signatureHash) :
    first = second := by
  have hashed (kind : EventKind) :
      kind.signatureHash = Keccak256.Rows.hash (Bytes.ofText kind.declaration) :=
    Keccak256.Rows.hash_eq _
  rw [hashed, hashed] at same
  exact List.inj_on_of_nodup_map nodup_hash_declaration (mem_all first) (mem_all second)
    (congrArg FixedBytes.bytes same)

end EventKind

namespace Event

/-- The values of those fields that are kept. -/
def select (keep : EventField → Bool) : List EventField → List AbiValue → List AbiValue
  | field :: fields, value :: values =>
    if keep field then value :: select keep fields values else select keep fields values
  | _, _ => []

/-- The topic of an indexed value. Byte strings stand on its left, numbers and addresses on its
right. -/
def topicOf (value : AbiValue) : Hash32 :=
  FixedBytes.fit (Abi.encodeValue value).encoded

/-- The values of the indexed fields. -/
def topicValues (event : Event) : List AbiValue :=
  select (·.indexed) event.kind.fields event.values

/-- The values of the other fields. -/
def dataValues (event : Event) : List AbiValue :=
  select (fun field => !field.indexed) event.kind.fields event.values

/-- A log has the topics and data that a contract emits for an event. -/
structure EmittedAs (event : Event) (log : Log) : Prop where
  topics : log.topics = event.kind.signatureHash :: event.topicValues.map topicOf
  data : log.data = Abi.encode event.dataValues

/-- The fields of an event hold values of their types. -/
def Proper (event : Event) : Prop :=
  AbiType.AdmitsAll (event.kind.fields.map (·.type)) event.values

section Select

variable
  {fields : List EventField}
  {values : List AbiValue}

/-- The values of chosen fields are of their types. -/
theorem admitsAll_select
    (keep : EventField → Bool)
    (admits : AbiType.AdmitsAll (fields.map (·.type)) values) :
    AbiType.AdmitsAll ((fields.filter keep).map (·.type)) (select keep fields values) := by
  induction fields generalizing values with
  | nil =>
      cases admits
      exact .nil
  | cons field fields inductionHypothesis =>
      cases admits with
      | cons first rest =>
          rw [select, List.filter_cons]
          split
          · exact .cons first (inductionHypothesis rest)
          · exact inductionHypothesis rest

/-- Values come back to their places. -/
theorem arrange_select (admits : AbiType.AdmitsAll (fields.map (·.type)) values) :
    arrange fields (select (·.indexed) fields values)
      (select (fun field => !field.indexed) fields values) = values := by
  induction fields generalizing values with
  | nil =>
      cases admits
      rfl
  | cons field fields inductionHypothesis =>
      cases admits with
      | cons first rest =>
          rw [arrange.eq_def, select, select]
          cases indexed : field.indexed <;> simp [indexed, inductionHypothesis rest]

/-- Values of the right types are arranged to values of the right types. -/
theorem admitsAll_arrange
    {topics data : List AbiValue}
    (topicsAdmit : AbiType.AdmitsAll ((fields.filter (·.indexed)).map (·.type)) topics)
    (dataAdmit : AbiType.AdmitsAll
      ((fields.filter fun field => !field.indexed).map (·.type)) data) :
    AbiType.AdmitsAll (fields.map (·.type)) (arrange fields topics data) := by
  induction fields generalizing topics data with
  | nil => exact .nil
  | cons field fields inductionHypothesis =>
      rw [List.filter_cons] at topicsAdmit dataAdmit
      rw [arrange.eq_def]
      cases indexed : field.indexed with
      | true =>
          rw [indexed] at topicsAdmit dataAdmit
          cases topicsAdmit with
          | cons first rest =>
              simp only [indexed]
              exact .cons first (inductionHypothesis rest dataAdmit)
      | false =>
          rw [indexed] at topicsAdmit dataAdmit
          cases dataAdmit with
          | cons first rest =>
              simp only [indexed]
              exact .cons first (inductionHypothesis topicsAdmit rest)

end Select

theorem flatMap_bytes_topicOf
    {types : List AbiType}
    {values : List AbiValue}
    (words : ∀ type ∈ types, type.isWord = true)
    (admits : AbiType.AdmitsAll types values) :
    (values.map topicOf).flatMap (·.bytes) = Abi.encode values := by
  have kept : ∀ value ∈ values, (topicOf value).bytes = (Abi.encodeValue value).encoded :=
    fun value present =>
      Bytes.fit_eq_self (Abi.length_encoded_of_isWord words admits value present)
  rw [Abi.encode_of_isWord words admits, List.flatMap_map, List.flatMap_def, List.flatMap_def,
    List.map_congr_left kept]

/-- What a log must hold in order to be read as an event of a kind. -/
theorem ofLogAs_eq_ok_iff
    {kind : EventKind}
    {log : Log}
    {event : Event} :
    ofLogAs kind log = .ok event ↔
      ∃ topics indexed data, log.topics = kind.signatureHash :: topics ∧
        Abi.decode kind.topicTypes (topics.flatMap (·.bytes)) = .ok indexed ∧
        indexed.length = topics.length ∧
        Abi.decode kind.dataTypes log.data = .ok data ∧
        event = ⟨kind, arrange kind.fields indexed data⟩ := by
  constructor
  · intro recognised
    rw [ofLogAs] at recognised
    split at recognised
    · exact nomatch recognised
    · rename_i signature topics split
      split at recognised
      · exact nomatch recognised
      · rename_i same
        obtain ⟨indexed, indexedDecoded, recognised⟩ := bind_eq_ok_iff.mp recognised
        dsimp only at recognised
        split at recognised
        · exact nomatch recognised
        · rename_i counted
          obtain ⟨data, dataDecoded, result⟩ := bind_eq_ok_iff.mp recognised
          rw [not_not] at same counted
          rw [same] at split
          exact ⟨topics, indexed, data, split, indexedDecoded, counted, dataDecoded,
            (Except.ok.inj result).symm⟩
  · rintro ⟨topics, indexed, data, split, indexedDecoded, counted, dataDecoded, rfl⟩
    rw [ofLogAs, split]
    simp only [ne_eq, not_true_eq_false, if_false, indexedDecoded, dataDecoded]
    exact if_neg (not_not.mpr counted)

/-- The log of an event is read as the event. -/
theorem ofLogAs_of_emittedAs
    {event : Event}
    {log : Log}
    (proper : event.Proper)
    (emitted : event.EmittedAs log) :
    ofLogAs event.kind log = .ok event := by
  have words := event.kind.isWord_of_mem_filter
  have decoded (keep : EventField → Bool) :=
    Abi.decode_encode_of_admits (admitsAll_select keep proper) fun dynamic =>
      absurd dynamic (Bool.eq_false_iff.mp (AbiType.anyDynamic_eq_false_of_isWord (words keep)))
  refine ofLogAs_eq_ok_iff.mpr ⟨event.topicValues.map topicOf, event.topicValues,
    event.dataValues, emitted.topics, ?_, (List.length_map _).symm, ?_, ?_⟩
  · rw [topicValues, flatMap_bytes_topicOf (words _) (admitsAll_select _ proper)]
    exact decoded _
  · rw [emitted.data]
    exact decoded _
  · rw [topicValues, dataValues, arrange_select proper]

/-- What is recognised as an event of a kind is of the kind. -/
theorem kind_of_ofLogAs
    {kind : EventKind}
    {log : Log}
    {event : Event}
    (recognised : ofLogAs kind log = .ok event) :
    event.kind = kind := by
  obtain ⟨_, _, _, _, _, _, _, rfl⟩ := ofLogAs_eq_ok_iff.mp recognised
  rfl

/-- Whatever log an event is read from, its fields hold values of their types. -/
theorem proper_of_ofLogAs
    {kind : EventKind}
    {log : Log}
    {event : Event}
    (recognised : ofLogAs kind log = .ok event) :
    event.Proper := by
  obtain ⟨_, _, _, _, indexedDecoded, _, dataDecoded, rfl⟩ := ofLogAs_eq_ok_iff.mp recognised
  exact admitsAll_arrange
    (Abi.admitsAll_of_decode (kind.isWord_of_mem_filter _) indexedDecoded)
    (Abi.admitsAll_of_decode (kind.isWord_of_mem_filter _) dataDecoded)

/-- A log is read as an event of one kind at most. -/
theorem kind_unique
    {first second : EventKind}
    {log : Log}
    {firstEvent secondEvent : Event}
    (recognised : ofLogAs first log = .ok firstEvent)
    (recognisedToo : ofLogAs second log = .ok secondEvent) :
    first = second := by
  obtain ⟨topics, _, _, split, _⟩ := ofLogAs_eq_ok_iff.mp recognised
  obtain ⟨topicsToo, _, _, splitToo, _⟩ := ofLogAs_eq_ok_iff.mp recognisedToo
  rw [split, List.cons.injEq] at splitToo
  exact EventKind.signatureHash_injective splitToo.1

theorem ofLogAs?_eq_some_iff
    {kind : EventKind}
    {log : Log}
    {event : Event} :
    ofLogAs? kind log = some event ↔ ofLogAs kind log = .ok event := by
  rw [ofLogAs?]
  cases ofLogAs kind log <;> simp [Except.toOption]

/-- The event in a log is found in any order in which all kinds are tried. -/
theorem findSome?_eq_some_iff
    {kinds : List EventKind}
    {log : Log}
    {event : Event}
    (complete : ∀ kind, kind ∈ kinds) :
    kinds.findSome? (ofLogAs? · log) = some event ↔ ofLogAs event.kind log = .ok event := by
  have sound {other : Event} (found : kinds.findSome? (ofLogAs? · log) = some other) :
      ofLogAs other.kind log = .ok other := by
    obtain ⟨kind, -, recognised⟩ := List.exists_of_findSome?_eq_some found
    rw [ofLogAs?_eq_some_iff] at recognised
    rwa [← kind_of_ofLogAs recognised] at recognised
  refine ⟨sound, fun recognised => ?_⟩
  cases found : kinds.findSome? (ofLogAs? · log) with
  | none =>
      have refused := List.findSome?_eq_none_iff.mp found event.kind (complete event.kind)
      rw [ofLogAs?_eq_some_iff.mpr recognised] at refused
      exact nomatch refused
  | some other =>
      have recognisedToo := sound found
      rw [kind_unique recognisedToo recognised, recognised] at recognisedToo
      rw [Except.ok.inj recognisedToo]

/-- Every event is recognised as itself in the logs that a contract emits for it. A log is read as
an event of one kind at most, so that the order in which the kinds are tried changes nothing. -/
theorem recognised_as_itself (log : Log) :
    (∀ event : Event, event.Proper → event.EmittedAs log → ofLog? log = some event) ∧
      (∀ first second firstEvent secondEvent, ofLogAs first log = .ok firstEvent →
        ofLogAs second log = .ok secondEvent → first = second ∧ firstEvent = secondEvent) ∧
      ∀ kinds : List EventKind, (∀ kind, kind ∈ kinds) →
        kinds.findSome? (ofLogAs? · log) = ofLog? log := by
  refine ⟨?_, ?_, ?_⟩
  · intro event proper emitted
    exact (findSome?_eq_some_iff EventKind.mem_all).mpr (ofLogAs_of_emittedAs proper emitted)
  · intro first second firstEvent secondEvent recognised recognisedToo
    obtain rfl := kind_unique recognised recognisedToo
    rw [recognised] at recognisedToo
    exact ⟨rfl, Except.ok.inj recognisedToo⟩
  · intro kinds complete
    refine Option.ext fun event => ?_
    rw [findSome?_eq_some_iff complete]
    exact (findSome?_eq_some_iff EventKind.mem_all).symm

/-- A member of the first validator set. -/
def sampleMember : Event where
  kind := .registeredInitialValidator
  values := [.fixedBytes (Bytes.zeros 32), .fixedBytes (List.replicate 20 7), .uint 100]

/-- The log of the member, whose node id stands on the left of its topic. -/
def sampleLog : Log where
  address := .zero
  topics := [EventKind.registeredInitialValidator.signatureHash, .zero,
    .fit (List.replicate 20 7 ++ Bytes.zeros 12)]
  data := Bytes.ofNat 32 100
  blockNumber := 0
  blockHash := .zero
  transactionHash := .zero
  logIndex := 0
  removed := false

theorem sampleMember_proper : sampleMember.Proper :=
  .cons (@AbiType.Admits.fixedBytes (Bytes.zeros 32) (by decide) (by decide))
    (.cons (@AbiType.Admits.fixedBytes (List.replicate 20 7) (by decide) (by decide))
      (.cons (.uint (by decide)) .nil))

theorem sampleMember_emittedAs : sampleMember.EmittedAs sampleLog :=
  ⟨congrArg (sampleMember.kind.signatureHash :: ·) (by decide), by decide⟩

/-- The sample log is recognised as the event that it was emitted for. -/
theorem sampleLog_recognised :
    sampleMember.Proper ∧ sampleMember.EmittedAs sampleLog ∧
      ofLog? sampleLog = some sampleMember :=
  ⟨sampleMember_proper, sampleMember_emittedAs,
    (recognised_as_itself sampleLog).1 sampleMember sampleMember_proper sampleMember_emittedAs⟩

end Event
end Valset
