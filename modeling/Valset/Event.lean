import Valset.Abi.Decode
import Valset.Chain.Transaction
import Valset.Id

/-!
# Events of the managers

The events that validator managers and staking managers emit, and their recognition in logs. The
first topic of a log is the hash of the signature of its event; the indexed fields follow as further
topics, and the other fields are encoded in the data.
-/

namespace Valset

/-- A field of an event. -/
structure EventField where
  name : String
  type : AbiType
  indexed : Bool

/-- The events of validator managers, then those of staking managers. -/
inductive EventKind
  | completedValidatorRegistration
  | completedValidatorRemoval
  | completedValidatorWeightUpdate
  | initiatedValidatorRegistration
  | initiatedValidatorRemoval
  | initiatedValidatorWeightUpdate
  | registeredInitialValidator
  | completedDelegatorRegistration
  | completedDelegatorRemoval
  | delegatorRewardClaimed
  | delegatorRewardRecipientChanged
  | initiatedDelegatorRegistration
  | initiatedDelegatorRemoval
  | initiatedStakingValidatorRegistration
  | uptimeUpdated
  | validatorRewardClaimed
  | validatorRewardRecipientChanged
deriving DecidableEq, Repr

namespace EventKind

/-- All kinds, in the order in which they are tried on a log. -/
def all : List EventKind := [
  completedValidatorRegistration, completedValidatorRemoval, completedValidatorWeightUpdate,
  initiatedValidatorRegistration, initiatedValidatorRemoval, initiatedValidatorWeightUpdate,
  registeredInitialValidator, completedDelegatorRegistration, completedDelegatorRemoval,
  delegatorRewardClaimed, delegatorRewardRecipientChanged, initiatedDelegatorRegistration,
  initiatedDelegatorRemoval, initiatedStakingValidatorRegistration, uptimeUpdated,
  validatorRewardClaimed, validatorRewardRecipientChanged]

/-- The name of an event. -/
def name : EventKind → String
  | completedValidatorRegistration => "CompletedValidatorRegistration"
  | completedValidatorRemoval => "CompletedValidatorRemoval"
  | completedValidatorWeightUpdate => "CompletedValidatorWeightUpdate"
  | initiatedValidatorRegistration => "InitiatedValidatorRegistration"
  | initiatedValidatorRemoval => "InitiatedValidatorRemoval"
  | initiatedValidatorWeightUpdate => "InitiatedValidatorWeightUpdate"
  | registeredInitialValidator => "RegisteredInitialValidator"
  | completedDelegatorRegistration => "CompletedDelegatorRegistration"
  | completedDelegatorRemoval => "CompletedDelegatorRemoval"
  | delegatorRewardClaimed => "DelegatorRewardClaimed"
  | delegatorRewardRecipientChanged => "DelegatorRewardRecipientChanged"
  | initiatedDelegatorRegistration => "InitiatedDelegatorRegistration"
  | initiatedDelegatorRemoval => "InitiatedDelegatorRemoval"
  | initiatedStakingValidatorRegistration => "InitiatedStakingValidatorRegistration"
  | uptimeUpdated => "UptimeUpdated"
  | validatorRewardClaimed => "ValidatorRewardClaimed"
  | validatorRewardRecipientChanged => "ValidatorRewardRecipientChanged"

/-- The kind with a name. -/
def ofName? (name : String) : Option EventKind :=
  all.find? (·.name == name)

/-- An indexed field. -/
def topic (name : String) (type : AbiType) : EventField :=
  ⟨name, type, true⟩

/-- A field in the data. -/
def plain (name : String) (type : AbiType) : EventField :=
  ⟨name, type, false⟩

/-- The indexed field of a 32-byte identifier. -/
def idTopic (name : String) : EventField :=
  topic name (.fixedBytes 32)

/-- The fields of an event in the order of its declaration. -/
def fields : EventKind → List EventField
  | completedValidatorRegistration => [idTopic "validation_id", plain "weight" (.uint 64)]
  | completedValidatorRemoval => [idTopic "validation_id"]
  | completedValidatorWeightUpdate =>
    [idTopic "validation_id", plain "nonce" (.uint 64), plain "weight" (.uint 64)]
  | initiatedValidatorRegistration =>
    [idTopic "validation_id", topic "node_id" (.fixedBytes 20),
      plain "registration_message_id" (.fixedBytes 32), plain "registration_expiry" (.uint 64),
      plain "weight" (.uint 64)]
  | initiatedValidatorRemoval =>
    [idTopic "validation_id", plain "validator_weight_message_id" (.fixedBytes 32),
      plain "weight" (.uint 64), plain "end_time" (.uint 64)]
  | initiatedValidatorWeightUpdate =>
    [idTopic "validation_id", plain "nonce" (.uint 64),
      plain "weight_update_message_id" (.fixedBytes 32), plain "weight" (.uint 64)]
  | registeredInitialValidator =>
    [idTopic "validation_id", topic "node_id" (.fixedBytes 20), plain "weight" (.uint 64)]
  | completedDelegatorRegistration =>
    [idTopic "delegation_id", idTopic "validation_id", plain "start_time" (.uint 256)]
  | completedDelegatorRemoval =>
    [idTopic "delegation_id", idTopic "validation_id", plain "rewards" (.uint 256),
      plain "fees" (.uint 256)]
  | delegatorRewardClaimed =>
    [idTopic "delegation_id", topic "recipient" .address, plain "amount" (.uint 256)]
  | delegatorRewardRecipientChanged =>
    [idTopic "delegation_id", topic "recipient" .address, topic "old_recipient" .address]
  | initiatedDelegatorRegistration =>
    [idTopic "delegation_id", idTopic "validation_id", topic "delegator_address" .address,
      plain "nonce" (.uint 64), plain "validator_weight" (.uint 64),
      plain "delegator_weight" (.uint 64), plain "set_weight_message_id" (.fixedBytes 32),
      plain "reward_recipient" .address]
  | initiatedDelegatorRemoval => [idTopic "delegation_id", idTopic "validation_id"]
  | initiatedStakingValidatorRegistration =>
    [idTopic "validation_id", topic "owner" .address, plain "delegation_fee_bips" (.uint 16),
      plain "min_stake_duration" (.uint 64), plain "reward_recipient" .address]
  | uptimeUpdated => [idTopic "validation_id", plain "uptime" (.uint 64)]
  | validatorRewardClaimed =>
    [idTopic "validation_id", topic "recipient" .address, plain "amount" (.uint 256)]
  | validatorRewardRecipientChanged =>
    [idTopic "validation_id", topic "recipient" .address, topic "old_recipient" .address]

/-- The types of the indexed fields. -/
def topicTypes (kind : EventKind) : List AbiType :=
  (kind.fields.filter (·.indexed)).map (·.type)

/-- The types of the fields in the data. -/
def dataTypes (kind : EventKind) : List AbiType :=
  (kind.fields.filter fun field => !field.indexed).map (·.type)

/-- The first topic of the logs of an event. -/
def signatureHash (kind : EventKind) : Hash32 :=
  Keccak256.hashText (AbiType.signature kind.name (kind.fields.map (·.type)))

end EventKind

/-- An event with the values of its fields in the order of their declaration. -/
structure Event where
  kind : EventKind
  values : List AbiValue

namespace Event

/-- The values of fields in the order of their declaration: the indexed ones from a first list, the
others from a second one. -/
def arrange : List EventField → (topics data : List AbiValue) → List AbiValue
  | [], _, _ => []
  | field :: rest, topics, data =>
    if field.indexed then
      match topics with
      | value :: topics => value :: arrange rest topics data
      | [] => []
    else
      match data with
      | value :: data => value :: arrange rest topics data
      | [] => []

/-- The event of a given kind in a log. -/
def ofLogAs (kind : EventKind) (log : Log) : Except AbiError Event :=
  match log.topics with
  | [] => .error .invalidData
  | signature :: topics =>
    if signature ≠ kind.signatureHash then .error .invalidData
    else do
      let indexed ← Abi.decode kind.topicTypes (topics.flatMap (·.bytes))
      if indexed.length ≠ topics.length then
        throw .invalidData
      let data ← Abi.decode kind.dataTypes log.data
      return ⟨kind, arrange kind.fields indexed data⟩

/-- The event of a given kind in a log, if it is there. -/
def ofLogAs? (kind : EventKind) (log : Log) : Option Event :=
  (ofLogAs kind log).toOption

/-- The event in a log, if it is one of the managers. -/
def ofLog? (log : Log) : Option Event :=
  EventKind.all.findSome? (ofLogAs? · log)

/-- The value of a field. -/
def value? (event : Event) (name : String) : Option AbiValue :=
  ((event.kind.fields.map (·.name)).zip event.values).lookup name

/-- The 32-byte identifier in a field. -/
def id? {kind : IdKind} (event : Event) (name : String) : Option (Id kind) := do
  return ⟨← (← event.value? name).fixed? 32⟩

/-- The 64-bit number in a field. -/
def uint64? (event : Event) (name : String) : Option UInt64 := do
  (← event.value? name).uint64?

/-- The number in a field. -/
def uint? (event : Event) (name : String) : Option U256 := do
  (← event.value? name).uint?

end Event

namespace Receipt

/-- All events of a kind in a receipt, in the order of its logs. -/
def events (receipt : Receipt) (kind : EventKind) : List Event :=
  receipt.logs.filterMap (Event.ofLogAs? kind)

/-- The first event of a kind in a receipt, whatever contract it comes from. -/
def event? (receipt : Receipt) (kind : EventKind) : Option Event :=
  receipt.logs.findSome? (Event.ofLogAs? kind)

end Receipt
end Valset
