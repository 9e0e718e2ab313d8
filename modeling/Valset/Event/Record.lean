import Valset.Event
import Valset.Json.Printer
import Valset.Json.Reader

/-!
# Records of events

An event and its place in the chain as one flat JSON value. Identifiers and node ids, which are
arrays of bytes among the fields of an event, stand in a record as hexadecimal text.
-/

namespace Valset

/-- The value of a field as JSON; byte strings of fixed length are arrays of numbers, and numbers
beyond 64 bits are texts. -/
def AbiValue.toJson (type : AbiType) : AbiValue → Json
  | .address value => .ofFixed value
  | .bool value => .bool value
  | .uint value =>
    match type with
    | .uint bits => if bits ≤ 64 then .ofNat value.toNat else .ofU256 value
    | _ => .ofU256 value
  | .fixedBytes value => .array (value.map fun byte => .ofNat byte.toNat)
  | .bytes value => .ofBytes value
  | .string value => .string value
  | .array _ => .array []
  | .tuple _ => .array []

/-- The fields of an event as JSON, in ascending order of their names. -/
def Event.fieldsJson (event : Event) : Json :=
  Json.canonical (.object (event.kind.fields.zipWith
    (fun field value => (field.name, value.toJson field.type)) event.values))

namespace Json

/-- The byte in a JSON value. -/
def byte? : Json → Option UInt8
  | .number (.whole value) =>
    if 0 ≤ value ∧ value < 256 then some (UInt8.ofNat value.toNat) else none
  | _ => none

/-- The byte string that an array of 20 or 32 bytes stands for. -/
def byteString? (items : List Json) : Option Bytes :=
  if items.length = 20 ∨ items.length = 32 then items.mapM byte? else none

mutual

/-- The same value with each array of 20 or 32 bytes replaced by hexadecimal text. -/
def hexify : Json → Json
  | .array items =>
    match byteString? items with
    | some bytes => .ofBytes bytes
    | none => .array (hexifyItems items)
  | .object fields => .object (hexifyFields fields)
  | other => other

/-- `hexify` for each item. -/
def hexifyItems : List Json → List Json
  | [] => []
  | item :: rest => hexify item :: hexifyItems rest

/-- `hexify` for the value of each field. -/
def hexifyFields : List (String × Json) → List (String × Json)
  | [] => []
  | (key, value) :: rest => (key, hexify value) :: hexifyFields rest

end
end Json

/-- An event as a subscription delivers it. A removed event is one that was delivered before and has
been taken back. -/
structure LiveEvent where
  event : Event
  log : Log

namespace LiveEvent

/-- The event in a log, if it is one of the managers. -/
def ofLog? (log : Log) : Option LiveEvent :=
  (Event.ofLog? log).map (⟨·, log⟩)

/-- Whether the event has been taken back. -/
def removed (live : LiveEvent) : Bool :=
  live.log.removed

/-- The block of an event. -/
def block (live : LiveEvent) : Nat :=
  live.log.blockNumber.toNat

end LiveEvent

/-- The index of a log, if it has no more than 64 bits. -/
def Log.index? (log : Log) : Option UInt64 :=
  if log.logIndex.toNat < UInt64.size then some (.ofNat log.logIndex.toNat) else none

/-- An event and its place in the chain. -/
structure EventRecord where
  address : Address
  blockNumber : UInt64
  blockHash : Hash32
  transactionHash : Hash32
  logIndex : UInt64
  event : String
  fields : Json
  removed : Bool

namespace EventRecord

/-- The record of an event that stands, if there is room for the index of its log. -/
def ofEvent? (event : Event) (log : Log) : Option EventRecord := do
  let logIndex ← log.index?
  return {
    address := log.address
    blockNumber := log.blockNumber
    blockHash := log.blockHash
    transactionHash := log.transactionHash
    logIndex
    event := event.kind.name
    fields := event.fieldsJson.hexify
    removed := false
  }

/-- The record of a live event, if there is room for the index of its log. -/
def ofLive? (live : LiveEvent) : Option EventRecord := do
  return { ← ofEvent? live.event live.log with removed := live.removed }

/-- A record as JSON; that an event was taken back is only said where it is so. -/
def toJson (record : EventRecord) : Json :=
  .object ([
    ("address", .ofFixed record.address),
    ("blockNumber", .ofUInt64 record.blockNumber),
    ("blockHash", .ofFixed record.blockHash),
    ("transactionHash", .ofFixed record.transactionHash),
    ("logIndex", .ofUInt64 record.logIndex),
    ("event", .string record.event),
    ("fields", record.fields)] ++
    if record.removed then [("removed", .bool true)] else [])

/-- The names of the fields in JSON. -/
def fieldNames : List String :=
  ["address", "blockNumber", "blockHash", "transactionHash", "logIndex", "event", "fields",
    "removed"]

/-- Reads a record. -/
def ofJson? : Json.Reader EventRecord := fun json => do
  let source ← Json.source? fieldNames json
  return {
    address := ← source.required "address" Json.readAddress
    blockNumber := ← source.required "blockNumber" Json.readUInt64
    blockHash := ← source.required "blockHash" Json.readHash32
    transactionHash := ← source.required "transactionHash" Json.readHash32
    logIndex := ← source.required "logIndex" Json.readUInt64
    event := ← source.required "event" Json.readString
    fields := ← source.required "fields" fun value => some value.canonical
    removed := ← source.defaulted "removed" Json.readBool false
  }

/-- The line of a record, with its line break. -/
def line (record : EventRecord) : String :=
  record.toJson.compact ++ "\n"

end EventRecord
end Valset
