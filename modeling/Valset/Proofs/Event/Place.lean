import Valset.Scan.Follow

/-!
# Places of events

Where the log of an event stands in the chain. An event and its retraction have the same place, and
a record names the place of its event. There is none when the index of the log does not fit into 64
bits.
-/

namespace Valset

/-- Where a log stands in the chain. -/
structure Place where
  block : Nat
  blockHash : Hash32
  transactionHash : Hash32
  logIndex : Nat
deriving DecidableEq

/-- The place of a log. -/
def Log.place (log : Log) : Place where
  block := log.blockNumber.toNat
  blockHash := log.blockHash
  transactionHash := log.transactionHash
  logIndex := log.logIndex.toNat

/-- Logs stand in the order of their blocks. -/
abbrev InBlockOrder (logs : List Log) : Prop :=
  logs.Pairwise fun one other => one.blockNumber.toNat ≤ other.blockNumber.toNat

/-- The place of an event. -/
def LiveEvent.place (live : LiveEvent) : Place :=
  live.log.place

@[simp] theorem LiveEvent.place_block (live : LiveEvent) : live.place.block = live.block := rfl

/-- The place that a record names. -/
def EventRecord.place (record : EventRecord) : Place where
  block := record.blockNumber.toNat
  blockHash := record.blockHash
  transactionHash := record.transactionHash
  logIndex := record.logIndex.toNat

/-- A record has room for the index of a log. -/
def Log.Indexable (log : Log) : Prop :=
  log.logIndex.toNat < UInt64.size

/-- A record has room for the index of the log of an event. -/
def LiveEvent.Indexable (live : LiveEvent) : Prop :=
  live.log.Indexable

instance (log : Log) : Decidable log.Indexable :=
  inferInstanceAs (Decidable (_ < _))

instance (live : LiveEvent) : Decidable live.Indexable :=
  inferInstanceAs (Decidable live.log.Indexable)

/-- A log index that fits is given as it is. -/
theorem Log.index?_of_indexable
    {log : Log}
    (indexable : log.Indexable) :
    log.index? = some (.ofNat log.logIndex.toNat) :=
  if_pos indexable

/-- A log index that is given is that of the log. -/
theorem Log.toNat_of_index?
    {log : Log}
    {index : UInt64}
    (indexed : log.index? = some index) :
    index.toNat = log.logIndex.toNat := by
  rw [index?] at indexed
  split at indexed
  · next fits =>
    obtain rfl := Option.some.inj indexed
    exact UInt64.toNat_ofNat_of_lt' fits
  · cases indexed

namespace EventRecord

section OfLive

variable
  {live : LiveEvent}
  {record : EventRecord}

/-- There is a record of an event once its log has an index, and it takes over all the rest. -/
theorem ofLive?_eq_some_iff :
    ofLive? live = some record ↔
      ∃ index, live.log.index? = some index ∧ record = {
        address := live.log.address
        blockNumber := live.log.blockNumber
        blockHash := live.log.blockHash
        transactionHash := live.log.transactionHash
        logIndex := index
        event := live.event.kind.name
        fields := live.event.fieldsJson.hexify
        removed := live.removed } := by
  rw [ofLive?, ofEvent?]
  cases live.log.index? with
  | none => simp
  | some index => simp [eq_comm]

/-- A live event whose log index fits has a record. -/
theorem exists_ofLive? (indexable : live.Indexable) : ∃ record, ofLive? live = some record :=
  ⟨_, ofLive?_eq_some_iff.mpr ⟨_, Log.index?_of_indexable indexable, rfl⟩⟩

/-- The record of a live event is in its place. -/
theorem place_of_ofLive? (recorded : ofLive? live = some record) : record.place = live.place := by
  obtain ⟨index, indexed, rfl⟩ := ofLive?_eq_some_iff.mp recorded
  rw [place, LiveEvent.place, Log.place, Log.toNat_of_index? indexed]

/-- The record of a live event says whether it was taken back. -/
theorem removed_of_ofLive? (recorded : ofLive? live = some record) :
    record.removed = live.removed := by
  obtain ⟨index, -, rfl⟩ := ofLive?_eq_some_iff.mp recorded
  rfl

/-- The record of a live event has its block. -/
theorem blockNumber_of_ofLive? (recorded : ofLive? live = some record) :
    record.blockNumber = live.log.blockNumber := by
  obtain ⟨index, -, rfl⟩ := ofLive?_eq_some_iff.mp recorded
  rfl

/-- The history has the same record of a standing event as a subscription. -/
theorem ofEvent?_of_standing (standing : live.removed = false) :
    ofEvent? live.event live.log = ofLive? live := by
  rw [ofLive?, ofEvent?, standing]
  cases live.log.index? <;> rfl

end OfLive

/-! ### Records of several events -/

section Records

variable
  {events : List LiveEvent}
  {records : List EventRecord}

/-- If the records of all events are there, so is the record of each. -/
theorem exists_record_of_mem
    (recorded : records.map some = events.map ofLive?)
    {live : LiveEvent}
    (present : live ∈ events) :
    ∃ record ∈ records, ofLive? live = some record := by
  have made : ofLive? live ∈ records.map some := recorded ▸ List.mem_map_of_mem present
  obtain ⟨record, inRecords, same⟩ := List.mem_map.mp made
  exact ⟨record, inRecords, same.symm⟩

/-- If the records are those of events, each of them is the record of one. -/
theorem exists_event_of_mem
    (recorded : records.map some = events.map ofLive?)
    {record : EventRecord}
    (present : record ∈ records) :
    ∃ live ∈ events, ofLive? live = some record := by
  have made : some record ∈ events.map ofLive? := recorded ▸ List.mem_map_of_mem present
  exact List.mem_map.mp made

/-- Records say in which order events come up, and which of them were taken back. -/
theorem map_place_removed
    (recorded : records.map some = events.map ofLive?) :
    records.map (fun record => (record.place, record.removed)) =
      events.map fun live => (live.place, live.removed) := by
  induction events generalizing records with
  | nil =>
      obtain rfl := List.map_eq_nil_iff.mp recorded
      rfl
  | cons live events inductionHypothesis =>
      cases records with
      | nil => cases recorded
      | cons record records =>
          obtain ⟨first, others⟩ := List.cons.inj recorded
          rw [List.map_cons, List.map_cons, inductionHypothesis others,
            place_of_ofLive? first.symm, removed_of_ofLive? first.symm]

end Records

/-- The record of the event in a log, if there is one. -/
def ofLog? (log : Log) : Option EventRecord :=
  (LiveEvent.ofLog? log).bind ofLive?

/-- The record of a log has its block. -/
theorem blockNumber_of_ofLog?
    {log : Log}
    {record : EventRecord}
    (recorded : ofLog? log = some record) :
    record.blockNumber = log.blockNumber := by
  obtain ⟨live, decoded, made⟩ := Option.bind_eq_some_iff.mp recorded
  obtain ⟨event, _, rfl⟩ := Option.map_eq_some_iff.mp decoded
  exact blockNumber_of_ofLive? made

end EventRecord

/-- Events do not depend on the address of their log. -/
theorem LiveEvent.ofLog?_address
    {log : Log}
    {live : LiveEvent}
    (decoded : LiveEvent.ofLog? log = some live)
    (address : Address) :
    LiveEvent.ofLog? { log with address } =
      some { live with log := { live.log with address } } := by
  obtain ⟨event, eventDecoded, rfl⟩ := Option.map_eq_some_iff.mp decoded
  exact Option.map_eq_some_iff.mpr ⟨event, eventDecoded, rfl⟩

namespace Scan

/-- Two events are the same to the scan when they have one place and one flag. -/
theorem EventIdentity.ofLive_eq_iff {left right : LiveEvent} :
    EventIdentity.ofLive left = .ofLive right ↔
      left.place = right.place ∧ left.removed = right.removed := by
  simp only [ofLive, LiveEvent.place, LiveEvent.block, Log.place, EventIdentity.mk.injEq,
    Place.mk.injEq, BitVec.toNat_inj]
  simp only [and_assoc]

end Scan

/-! ## Sample events -/

/-- The log of a registration in a block, for examples. -/
def Log.sample (block : UInt64) (index : Nat) (removed : Bool) : Log where
  address := .ofNat 1
  topics := [EventKind.completedValidatorRegistration.signatureHash, .zero]
  data := Bytes.zeros 32
  blockNumber := block
  blockHash := .ofNat block.toNat
  transactionHash := .zero
  logIndex := BitVec.ofNat 256 index
  removed := removed

@[simp] theorem Log.sample_address (block : UInt64) (index : Nat) (removed : Bool) :
    (Log.sample block index removed).address = .ofNat 1 := rfl

@[simp] theorem Log.sample_blockNumber (block : UInt64) (index : Nat) (removed : Bool) :
    (Log.sample block index removed).blockNumber = block := rfl

/-- Sample logs are told apart by what they are made of. -/
@[simp] theorem Log.sample_eq_sample_iff
    {block otherBlock : UInt64}
    {index otherIndex : Nat}
    {removed otherRemoved : Bool} :
    Log.sample block index removed = Log.sample otherBlock otherIndex otherRemoved ↔
      block = otherBlock ∧ BitVec.ofNat 256 index = BitVec.ofNat 256 otherIndex ∧
        removed = otherRemoved := by
  constructor
  · intro same
    exact ⟨congrArg Log.blockNumber same, congrArg Log.logIndex same, congrArg Log.removed same⟩
  · rintro ⟨rfl, sameIndex, rfl⟩
    simp [Log.sample, sameIndex]

/-- The event of a registration in a block, for examples. -/
def LiveEvent.sample (block : UInt64) (index : Nat) (removed : Bool) : LiveEvent where
  event := ⟨.completedValidatorRegistration, [.fixedBytes (Bytes.zeros 32), .uint 0]⟩
  log := .sample block index removed

/-- The record of a registration in a block, for examples. -/
def EventRecord.sample (block : UInt64) (index : Nat) (removed : Bool) : EventRecord where
  address := .ofNat 1
  blockNumber := block
  blockHash := .ofNat block.toNat
  transactionHash := .zero
  logIndex := .ofNat index
  event := EventKind.completedValidatorRegistration.name
  fields := (LiveEvent.sample block index removed).event.fieldsJson.hexify
  removed := removed

/-- A sample event has a log index that fits. -/
theorem LiveEvent.indexable_sample
    {index : Nat}
    (fits : index < UInt64.size)
    (block : UInt64)
    (removed : Bool) :
    (LiveEvent.sample block index removed).Indexable :=
  Nat.lt_of_le_of_lt (Nat.mod_le _ _) fits

/-- The record of a sample event is the sample record. -/
theorem EventRecord.ofLive?_sample
    {index : Nat}
    (fits : index < UInt64.size)
    (block : UInt64)
    (removed : Bool) :
    ofLive? (.sample block index removed) = some (.sample block index removed) := by
  have indexed := Log.index?_of_indexable (LiveEvent.indexable_sample fits block removed)
  refine ofLive?_eq_some_iff.mpr ⟨.ofNat index, ?_, rfl⟩
  rw [indexed]
  change some (UInt64.ofNat (index % 2 ^ 256)) = _
  rw [Nat.mod_eq_of_lt (Nat.lt_trans fits (by decide))]

/-- A sample log is that of the completion of a registration. -/
theorem Event.ofLogAs_sample (block : UInt64) (index : Nat) (removed : Bool) :
    Event.ofLogAs .completedValidatorRegistration (.sample block index removed) =
      .ok (LiveEvent.sample block index removed).event := by
  have topics : Abi.decode EventKind.completedValidatorRegistration.topicTypes
      ([FixedBytes.zero].flatMap fun topic : Hash32 => topic.bytes) =
        .ok [.fixedBytes (Bytes.zeros 32)] := rfl
  have data : Abi.decode EventKind.completedValidatorRegistration.dataTypes (Bytes.zeros 32) =
      .ok [.uint 0] := rfl
  simp only [ofLogAs, Log.sample, ne_eq, not_true_eq_false, if_false, topics, data]
  rfl

/-- A sample log is decoded as its event. -/
theorem Event.ofLog?_sample (block : UInt64) (index : Nat) (removed : Bool) :
    Event.ofLog? (.sample block index removed) =
      some (LiveEvent.sample block index removed).event := by
  have first : Event.ofLogAs? .completedValidatorRegistration (.sample block index removed) =
      some (LiveEvent.sample block index removed).event := by
    rw [ofLogAs?, ofLogAs_sample, Except.toOption]
  refine (List.findSome?_cons_of_isSome ?_).trans first
  rw [first, Option.isSome_some]

/-- A sample log is decoded as a live event. -/
@[simp] theorem LiveEvent.ofLog?_sample (block : UInt64) (index : Nat) (removed : Bool) :
    LiveEvent.ofLog? (.sample block index removed) = some (.sample block index removed) := by
  rw [ofLog?, Event.ofLog?_sample, Option.map_some]
  rfl

end Valset
