import Valset.Manager.StakingManager
import Valset.Manager.ValidatorManager
import Valset.Proofs.Contract.State
import Valset.Proofs.Manager.Operation

/-!
# Reading from the managers

A contract returns what it holds as a tuple, and a read is one call whose reply is taken apart in
the same way. What a read gives is therefore what the contract holds. Only the codes of statuses can
be without a meaning, and only the zero id stands for no validation at all.
-/

namespace Valset

theorem Id.isZero_iff
    {kind : IdKind}
    {id : Id kind} :
    id.isZero = true ↔ id = .zero := by
  rcases id with ⟨hash⟩
  rw [isZero, FixedBytes.isZero_iff, zero, mk.injEq]

open AbiValue

/-! ## Views -/

/-- A function of a contract that gives a value without changing the chain: how the contract lays
the value out, how it is taken from the results of a call, and what it means to the reader. -/
structure View (α β : Type) where
  contract : Address
  function : ContractFunction
  arguments : List AbiValue
  results : α → List AbiValue
  value? : List AbiValue → Option α
  meaning : α → Except ManagerError β
  admits : ∀ value, AbiType.AdmitsAll function.outputs (results value)
  value?_results : ∀ value, value? (results value) = some value

namespace View

open Operation

variable
  {α β : Type}

/-- A view whose only result is a value of its type. -/
def single
    (contract : Address)
    (function : ContractFunction)
    (arguments : List AbiValue)
    (toAbi : α → AbiValue)
    (ofAbi? : AbiValue → Option α)
    (meaning : α → Except ManagerError β)
    (admits : ∀ value, AbiType.AdmitsAll function.outputs [toAbi value])
    (back : ∀ value, ofAbi? (toAbi value) = some value) : View α β where
  contract := contract
  function := function
  arguments := arguments
  results value := [toAbi value]
  value? results := results.head?.bind ofAbi?
  meaning := meaning
  admits := admits
  value?_results := back

/-- The call of a view and what the node answered. -/
def answered
    (view : View α β)
    (reply : Except NodeError Bytes) : Exchange NodeDialogue :=
  called view.contract (view.function.callData view.arguments) reply

/-- What a view makes of results. -/
def ofResults
    (view : View α β)
    (results : List AbiValue) : Except ManagerError β :=
  match view.value? results with
  | none => .error (.undecodableResult .invalidData)
  | some value => view.meaning value

/-- What a view makes of an answer. -/
def outcome (view : View α β) : Except NodeError Bytes → Except ManagerError β
  | .error cause => .error (.ofCall (.ofNodeError cause))
  | .ok data =>
    match Abi.decode view.function.outputs data with
    | .error cause => .error (.undecodableResult cause)
    | .ok results => view.ofResults results

/-- The operation that asks for a view. -/
def program (view : View α β) : Program NodeDialogue (Except ManagerError β) :=
  .ask (.call view.contract (view.function.callData view.arguments)) fun reply =>
    .done (view.outcome reply)

/-- What is taken apart comes from the layout of a view. -/
theorem outcome_encode
    {view : View α β}
    {value : α}
    (short : AbiType.anyDynamic view.function.outputs = true →
      (Abi.encode (view.results value)).length < UInt32.size) :
    view.outcome (.ok (Abi.encode (view.results value))) = view.meaning value := by
  have decoded := Abi.decode_encode_of_admits (view.admits value) short
  simp only [outcome, decoded, ofResults, view.value?_results]

theorem run_getOrThrow
    (value : Option α)
    (error : ManagerError) :
    (getOrThrow value error).run =
      .done (match value with
        | some value => .ok value
        | none => .error error) := by
  cases value <;> rfl

/-- A call is a view once each list of results is taken as the view takes it. -/
theorem run_read_bind
    (view : View α β)
    {next : List AbiValue → Operation β}
    (means : ∀ results, (next results).run = .done (view.ofResults results)) :
    (read view.contract view.function view.arguments >>= next).run = view.program := by
  rw [run_bind, run_read, program]
  change Program.ask _ _ = Program.ask _ _
  congr 1
  funext reply
  rcases reply with cause | (data : Bytes)
  · rfl
  · have decoded :
        afterOutcome next
            ((Abi.decode view.function.outputs data).mapError .undecodableResult) =
          .done (view.outcome (.ok data)) := by
      rw [outcome]
      cases Abi.decode view.function.outputs data with
      | error cause => rfl
      | ok results => exact means results
    exact decoded

theorem ofCall_ne_invalidStatus
    (cause : CallError)
    (kind : StatusKind)
    (code : UInt8) :
    ManagerError.ofCall cause ≠ .invalidStatus kind code := by
  rcases cause with _ | (_ | _) | (_ | _) | _ | _ | _ | _ <;> exact nofun

/-- A status without a meaning is reported only when the data of the reply holds one. -/
theorem exists_of_outcome_eq_invalidStatus
    {view : View α β}
    {reply : Except NodeError Bytes}
    {kind : StatusKind}
    {code : UInt8}
    (failed : view.outcome reply = .error (.invalidStatus kind code)) :
    ∃ data results holding, reply = .ok data ∧
      Abi.decode view.function.outputs data = .ok results ∧
      view.value? results = some holding ∧
      view.meaning holding = .error (.invalidStatus kind code) := by
  rcases reply with cause | data
  · exact absurd (Except.error.inj failed) (ofCall_ne_invalidStatus _ _ _)
  · rw [outcome] at failed
    cases decoded : Abi.decode view.function.outputs data with
    | error cause =>
        rw [decoded] at failed
        exact nomatch failed
    | ok results =>
        simp only [decoded, ofResults] at failed
        cases taken : view.value? results with
        | none =>
            rw [taken] at failed
            exact nomatch failed
        | some holding =>
            rw [taken] at failed
            exact ⟨data, results, holding, rfl, decoded, taken, failed⟩

section Single

variable
  {contract : Address}
  {function : ContractFunction}
  {arguments : List AbiValue}
  {toAbi : α → AbiValue}
  {ofAbi? : AbiValue → Option α}
  {meaning : α → Except ManagerError β}
  {admits : ∀ value, AbiType.AdmitsAll function.outputs [toAbi value]}
  {back : ∀ value, ofAbi? (toAbi value) = some value}

theorem ofResults_single (results : List AbiValue) :
    (single contract function arguments toAbi ofAbi? meaning admits back).ofResults results =
      match results.head?.bind ofAbi? with
      | none => .error (.undecodableResult .invalidData)
      | some value => meaning value := rfl

/-- Reading a single result and going on with its meaning is a view. -/
theorem run_readOne_bind
    {next : α → Operation β}
    (means : ∀ value, (next value).run = .done (meaning value)) :
    (readOne contract function arguments ofAbi? >>= next).run =
      (single contract function arguments toAbi ofAbi? meaning admits back).program := by
  rw [readOne, run_bind_assoc]
  refine run_read_bind (single contract function arguments toAbi ofAbi? meaning admits back)
    fun results => ?_
  rw [run_bind, run_getOrThrow, ofResults_single]
  cases results.head?.bind ofAbi? with
  | none => rfl
  | some value => exact means value

/-- Reading a single result is a view that means what it holds. -/
theorem run_readOne_eq_program
    {admits : ∀ value, AbiType.AdmitsAll function.outputs [toAbi value]}
    {back : ∀ value, ofAbi? (toAbi value) = some value} :
    (readOne contract function arguments ofAbi?).run =
      (single contract function arguments toAbi ofAbi? .ok admits back).program := by
  refine run_read_bind (single contract function arguments toAbi ofAbi? .ok admits back)
    fun results => ?_
  rw [run_getOrThrow, ofResults_single]
  cases results.head?.bind ofAbi? <;> rfl

end Single

end View

/-! ## Reads -/

/-- A read of a single value, by the type of what the contract holds and the type of what the read
gives. -/
inductive Reading : Type → Type → Type
  | subnetId (manager : ValidatorManager) : Reading SubnetId SubnetId
  | validator
      (manager : ValidatorManager)
      (validation : ValidationId) : Reading RawValidator ValidatorInfo
  | nodeValidationId
      (manager : ValidatorManager)
      (node : Bytes) : Reading ValidationId (Option ValidationId)
  | totalWeight (manager : ValidatorManager) : Reading UInt64 UInt64
  | settings (manager : StakingManager) : Reading StakingSettings StakingSettings
  | stakingValidator
      (manager : StakingManager)
      (validation : ValidationId) : Reading StakingValidatorInfo StakingValidatorInfo
  | delegator
      (manager : StakingManager)
      (delegation : DelegationId) : Reading RawDelegator DelegatorInfo
  | validatorReward
      (manager : StakingManager)
      (validation : ValidationId) : Reading RewardInfo RewardInfo
  | delegatorReward
      (manager : StakingManager)
      (delegation : DelegationId) : Reading RewardInfo RewardInfo
  | valueToWeight
      (manager : StakingManager)
      (value : U256) : Reading UInt64 UInt64
  | weightToValue
      (manager : StakingManager)
      (weight : UInt64) : Reading U256 U256

namespace Reading

open Operation

variable
  {α β : Type}

/-- Does what a read is. -/
def perform : Reading α β → Operation β
  | .subnetId manager => manager.subnetId
  | .validator manager validation => manager.validator validation
  | .nodeValidationId manager node => manager.nodeValidationId node
  | .totalWeight manager => manager.totalWeight
  | .settings manager => manager.settings
  | .stakingValidator manager validation => manager.stakingValidator validation
  | .delegator manager delegation => manager.delegator delegation
  | .validatorReward manager validation => manager.validatorReward validation
  | .delegatorReward manager delegation => manager.delegatorReward delegation
  | .valueToWeight manager value => manager.valueToWeight value
  | .weightToValue manager weight => manager.weightToValue weight

/-- A state, unless the code of its status has no meaning. -/
def known
    (info : Option α)
    (kind : StatusKind)
    (code : UInt8) : Except ManagerError α :=
  match info with
  | some info => .ok info
  | none => .error (.invalidStatus kind code)

theorem run_getOrThrow_invalidStatus
    (info : Option α)
    (kind : StatusKind)
    (code : UInt8) :
    (getOrThrow info (.invalidStatus kind code)).run = .done (known info kind code) := by
  cases info <;> rfl

/-- A 32-byte identifier that a function gives. -/
def idView
    {kind : IdKind}
    (contract : Address)
    (function : ContractFunction)
    (arguments : List AbiValue)
    (outputs : function.outputs = [.fixedBytes 32])
    (meaning : Id kind → Except ManagerError β) : View (Id kind) β :=
  .single contract function arguments (fun id => .ofFixed id.hash)
    (fun value => Id.mk <$> value.fixed? 32) meaning
    (fun id => outputs ▸ .cons (admits_ofHash id.hash) .nil) (fun id => by simp)

/-- A reward that a function gives for an identifier. -/
def rewardView
    (contract : Address)
    (function : ContractFunction)
    (outputs : function.outputs = [.address, .uint 256])
    (id : Hash32) : View RewardInfo RewardInfo where
  contract := contract
  function := function
  arguments := [.ofFixed id]
  results reward := [.address reward.recipient, .uint reward.amount]
  value?
    | [.address recipient, .uint amount] => some { recipient, amount }
    | _ => none
  meaning := .ok
  admits _ := outputs ▸ .cons (.address _) (.cons (admits_uint _) .nil)
  value?_results _ := rfl

/-- The view that a read asks for. -/
def view : Reading α β → View α β
  | .subnetId manager =>
    idView manager.address ValidatorManagerContract.subnetId [] rfl .ok
  | .validator manager validation =>
    .single manager.address ValidatorManagerContract.getValidator [.ofFixed validation.hash]
      RawValidator.toAbi RawValidator.ofAbi?
      (fun raw => known raw.info? .validator raw.status)
      (fun raw => .cons raw.admits_toAbi .nil) RawValidator.ofAbi?_toAbi
  | .nodeValidationId manager node =>
    idView manager.address ValidatorManagerContract.getNodeValidationId [.bytes node] rfl
      fun id => .ok (if id = .zero then none else some id)
  | .totalWeight manager =>
    .single manager.address ValidatorManagerContract.l1TotalWeight [] .ofUInt64 uint64? .ok
      (fun weight => .cons (admits_ofUInt64 weight) .nil) uint64?_ofUInt64
  | .settings manager =>
    .single manager.address StakingManagerContract.getStakingManagerSettings []
      StakingSettings.toAbi StakingSettings.ofAbi? .ok
      (fun settings => .cons settings.admits_toAbi .nil) StakingSettings.ofAbi?_toAbi
  | .stakingValidator manager validation =>
    .single manager.address StakingManagerContract.getStakingValidator [.ofFixed validation.hash]
      StakingValidatorInfo.toAbi StakingValidatorInfo.ofAbi? .ok
      (fun info => .cons info.admits_toAbi .nil) StakingValidatorInfo.ofAbi?_toAbi
  | .delegator manager delegation =>
    .single manager.address StakingManagerContract.getDelegatorInfo [.ofFixed delegation.hash]
      RawDelegator.toAbi RawDelegator.ofAbi?
      (fun raw => known raw.info? .delegator raw.status)
      (fun raw => .cons raw.admits_toAbi .nil) RawDelegator.ofAbi?_toAbi
  | .validatorReward manager validation =>
    rewardView manager.address StakingManagerContract.getValidatorRewardInfo rfl validation.hash
  | .delegatorReward manager delegation =>
    rewardView manager.address StakingManagerContract.getDelegatorRewardInfo rfl delegation.hash
  | .valueToWeight manager value =>
    .single manager.address StakingManagerContract.valueToWeight [.uint value] .ofUInt64 uint64?
      .ok (fun weight => .cons (admits_ofUInt64 weight) .nil) uint64?_ofUInt64
  | .weightToValue manager weight =>
    .single manager.address StakingManagerContract.weightToValue [.ofUInt64 weight] .uint uint?
      .ok (fun value => .cons (admits_uint value) .nil) fun _ => rfl

/-- What is taken as a reward was given as its recipient and its amount. -/
theorem eq_of_value?_rewardView
    {contract : Address}
    {function : ContractFunction}
    {outputs : function.outputs = [.address, .uint 256]}
    {id : Hash32}
    {results : List AbiValue}
    {reward : RewardInfo}
    (taken : (rewardView contract function outputs id).value? results = some reward) :
    results = [.address reward.recipient, .uint reward.amount] := by
  dsimp only [rewardView] at taken
  split at taken
  · obtain rfl := Option.some.inj taken
    rfl
  · exact nomatch taken

theorem run_reward
    (manager : StakingManager)
    (function : ContractFunction)
    (outputs : function.outputs = [.address, .uint 256])
    (id : Hash32) :
    (manager.reward function id).run =
      (rewardView manager.address function outputs id).program := by
  refine View.run_read_bind (rewardView manager.address function outputs id) fun results => ?_
  rw [View.ofResults]
  -- The operation takes the results apart by a match of its own.
  cases taken : (rewardView manager.address function outputs id).value? results with
  | some reward =>
      obtain rfl := eq_of_value?_rewardView taken
      rfl
  | none =>
      split
      · exact nomatch taken
      · rfl

/-- A read asks for its view and nothing else. -/
theorem run_perform (reading : Reading α β) : reading.perform.run = reading.view.program := by
  cases reading with
  | subnetId | totalWeight | settings | stakingValidator | valueToWeight | weightToValue =>
      exact View.run_readOne_eq_program
  | validator =>
      exact View.run_readOne_bind fun raw => run_getOrThrow_invalidStatus raw.info? _ _
  | nodeValidationId manager node =>
      refine View.run_readOne_bind fun id => ?_
      change Program.done (Except.ok (if id.isZero then none else some id)) = _
      simp only [Id.isZero_iff]
  | delegator =>
      exact View.run_readOne_bind fun raw => run_getOrThrow_invalidStatus raw.info? _ _
  | validatorReward manager validation => exact run_reward manager _ rfl _
  | delegatorReward manager delegation => exact run_reward manager _ rfl _

/-! ## What reads give -/

/-- The values that a read can give: the zero id is none of a validation. -/
def Proper : Reading α β → β → Prop
  | .nodeValidationId _ _, value => value ≠ some .zero
  | _, _ => True

/-- What the contract holds for a value that a read gives. -/
def held : Reading α β → β → α
  | .subnetId _ => id
  | .validator _ _ => RawValidator.ofInfo
  | .nodeValidationId _ _ => (·.getD .zero)
  | .totalWeight _ => id
  | .settings _ => id
  | .stakingValidator _ _ => id
  | .delegator _ _ => RawDelegator.ofInfo
  | .validatorReward _ _ => id
  | .delegatorReward _ _ => id
  | .valueToWeight _ _ => id
  | .weightToValue _ _ => id

/-- The code of the status in what the contract holds. -/
def status? : Reading α β → α → Option (StatusKind × UInt8)
  | .validator _ _, raw => some (.validator, raw.status)
  | .delegator _ _, raw => some (.delegator, raw.status)
  | _, _ => none

/-- The same read by a staking manager that takes stake in another way. -/
def through
    (kind : TokenKind) : Reading α β → Reading α β
  | .settings manager => .settings { manager with kind }
  | .stakingValidator manager validation => .stakingValidator { manager with kind } validation
  | .delegator manager delegation => .delegator { manager with kind } delegation
  | .validatorReward manager validation => .validatorReward { manager with kind } validation
  | .delegatorReward manager delegation => .delegatorReward { manager with kind } delegation
  | .valueToWeight manager value => .valueToWeight { manager with kind } value
  | .weightToValue manager weight => .weightToValue { manager with kind } weight
  | reading => reading

/-- The kind of a manager plays no part in reading. -/
theorem perform_through
    (reading : Reading α β)
    (kind : TokenKind) :
    (reading.through kind).perform = reading.perform := by
  cases reading <;> rfl

theorem known_eq_ok_iff
    {info : Option α}
    {kind : StatusKind}
    {code : UInt8}
    {value : α} :
    known info kind code = .ok value ↔ info = some value := by
  cases info <;> simp [known]

/-- A status is unknown if its code is beyond the known ones, and then its code is reported. -/
theorem known_eq_invalidStatus_iff
    {info : Option α}
    {kind otherKind : StatusKind}
    {code otherCode : UInt8}
    (unknown : info = none ↔ kind.count ≤ code.toNat) :
    known info kind code = .error (.invalidStatus otherKind otherCode) ↔
      some (kind, code) = some (otherKind, otherCode) ∧
        otherKind.count ≤ otherCode.toNat := by
  have failed : known info kind code = .error (.invalidStatus otherKind otherCode) ↔
      info = none ∧ kind = otherKind ∧ code = otherCode := by
    cases info <;> simp [known]
  rw [failed, unknown, Option.some.injEq, Prod.mk.injEq]
  constructor
  · rintro ⟨beyond, rfl, rfl⟩
    exact ⟨⟨rfl, rfl⟩, beyond⟩
  · rintro ⟨⟨rfl, rfl⟩, beyond⟩
    exact ⟨beyond, rfl, rfl⟩

/-- What the contract holds means one value, and every value that a read can give is meant by what
the contract holds for it and nothing else. -/
theorem meaning_eq_ok_iff
    (reading : Reading α β)
    {holding : α}
    {value : β} :
    reading.view.meaning holding = .ok value ↔
      reading.Proper value ∧ holding = reading.held value := by
  cases reading with
  | validator =>
      exact known_eq_ok_iff.trans (by simp [Proper, held, RawValidator.info?_eq_some_iff])
  | delegator =>
      exact known_eq_ok_iff.trans (by simp [Proper, held, RawDelegator.info?_eq_some_iff])
  | nodeValidationId manager node =>
      change Except.ok (if holding = .zero then none else some holding) = Except.ok value ↔
        value ≠ some .zero ∧ holding = value.getD .zero
      rw [Except.ok.injEq]
      split
      · rename_i unset
        subst unset
        cases value <;> simp [eq_comm]
      · rename_i set
        cases value with
        | none => simp [set]
        | some other =>
            rw [Option.some.injEq, Option.getD_some, ne_eq, Option.some.injEq]
            refine ⟨?_, And.right⟩
            rintro rfl
            exact ⟨set, rfl⟩
  | _ =>
      change Except.ok holding = Except.ok value ↔ True ∧ holding = id value
      simp

/-- What the contract holds has no meaning exactly when the code of its status is not that of any
status. -/
theorem meaning_eq_invalidStatus_iff
    (reading : Reading α β)
    {holding : α}
    {kind : StatusKind}
    {code : UInt8} :
    reading.view.meaning holding = .error (.invalidStatus kind code) ↔
      reading.status? holding = some (kind, code) ∧ kind.count ≤ code.toNat := by
  cases reading with
  | validator => exact known_eq_invalidStatus_iff RawValidator.info?_eq_none_iff
  | delegator => exact known_eq_invalidStatus_iff RawDelegator.info?_eq_none_iff
  | _ => exact ⟨nofun, fun found => nomatch found.1⟩

/-- A reading has the outcome of its reply. -/
theorem reaches_answered_iff
    (reading : Reading α β)
    {reply : Except NodeError Bytes}
    {outcome : Except ManagerError β} :
    reading.perform.run.Reaches [reading.view.answered reply] (.done outcome) ↔
      reading.view.outcome reply = outcome := by
  rw [run_perform]
  refine Program.reaches_ask_cons_iff.trans (Program.reaches_done_iff.trans ?_)
  rw [Program.done.injEq, eq_comm (a := outcome)]
  exact and_iff_right rfl

/-- A read gives what the contract encoded: a value for what the contract holds for it, and in
general the meaning of what is held. Only results of a size of their own have to keep below `2 ^ 32`
bytes, because no larger offset or length is decoded. A value is the meaning of one holding alone,
so that the zero id is none of a validation and stands for none. An unknown status is reported with
its code exactly when that code is beyond the statuses, also for replies that no contract encodes.
The way of a manager to take stake plays no part. -/
theorem gives_what_is_encoded (reading : Reading α β) :
    (∀ value, reading.Proper value →
      (AbiType.anyDynamic reading.view.function.outputs = true →
        (Abi.encode (reading.view.results (reading.held value))).length < UInt32.size) →
      reading.perform.run.Reaches
        [reading.view.answered (.ok (Abi.encode (reading.view.results (reading.held value))))]
        (.done (.ok value))) ∧
    (∀ holding,
      (AbiType.anyDynamic reading.view.function.outputs = true →
        (Abi.encode (reading.view.results holding)).length < UInt32.size) →
      reading.perform.run.Reaches
        [reading.view.answered (.ok (Abi.encode (reading.view.results holding)))]
        (.done (reading.view.meaning holding))) ∧
    (∀ holding value, reading.view.meaning holding = .ok value ↔
      reading.Proper value ∧ holding = reading.held value) ∧
    (∀ holding kind code, reading.view.meaning holding = .error (.invalidStatus kind code) ↔
      reading.status? holding = some (kind, code) ∧ kind.count ≤ code.toNat) ∧
    (∀ reply kind code,
      reading.perform.run.Reaches [reading.view.answered reply]
        (.done (.error (.invalidStatus kind code))) →
      ∃ data results holding, reply = .ok data ∧
        Abi.decode reading.view.function.outputs data = .ok results ∧
        reading.view.value? results = some holding ∧
        reading.status? holding = some (kind, code) ∧ kind.count ≤ code.toNat) ∧
    ∀ kind, (reading.through kind).perform = reading.perform := by
  have gives {holding : α}
      (short : AbiType.anyDynamic reading.view.function.outputs = true →
        (Abi.encode (reading.view.results holding)).length < UInt32.size) :
      reading.perform.run.Reaches
        [reading.view.answered (.ok (Abi.encode (reading.view.results holding)))]
        (.done (reading.view.meaning holding)) :=
    reading.reaches_answered_iff.mpr (View.outcome_encode short)
  refine ⟨?_, fun _ => gives, ?_, ?_, ?_, reading.perform_through⟩
  · intro value proper short
    rw [← reading.meaning_eq_ok_iff.mpr ⟨proper, rfl⟩]
    exact gives short
  · exact fun _ _ => reading.meaning_eq_ok_iff
  · exact fun _ _ _ => reading.meaning_eq_invalidStatus_iff
  · intro reply kind code reached
    obtain ⟨data, results, holding, rfl, decoded, taken, meant⟩ :=
      View.exists_of_outcome_eq_invalidStatus (reading.reaches_answered_iff.mp reached)
    exact ⟨data, results, holding, rfl, decoded, taken,
      reading.meaning_eq_invalidStatus_iff.mp meant⟩

/-- A validator in the middle of its life. -/
def sampleInfo : ValidatorInfo where
  status := .active
  nodeId := [6, 7]
  startingWeight := 1
  sentNonce := 2
  receivedNonce := 3
  weight := 4
  startTime := 5
  endTime := 6

/-- The read of the validator with the zero id. -/
def sampleReading : Reading RawValidator ValidatorInfo :=
  .validator ⟨.zero⟩ .zero

/-- The sample reading gives the validator, and reports a status that it does not know. -/
theorem sampleReading_gives :
    sampleReading.perform.run.Reaches
        [sampleReading.view.answered (.ok (Abi.encode [(RawValidator.ofInfo sampleInfo).toAbi]))]
        (.done (.ok sampleInfo)) ∧
      sampleReading.perform.run.Reaches
        [sampleReading.view.answered
          (.ok (Abi.encode [{ RawValidator.ofInfo sampleInfo with status := 9 }.toAbi]))]
        (.done (.error (.invalidStatus .validator 9))) := by
  obtain ⟨gives, givesMeaning, _⟩ := gives_what_is_encoded sampleReading
  constructor
  · exact gives sampleInfo trivial fun _ => by decide +kernel
  · exact givesMeaning { RawValidator.ofInfo sampleInfo with status := 9 } fun _ => by
      decide +kernel

end Reading
end Valset
