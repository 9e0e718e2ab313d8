import Valset.Proofs.Event.Fields
import Valset.Proofs.Manager.Confirmation
import Valset.Proofs.Manager.Transacting

/-!
# What transactions report

An operation succeeds only once its last transaction is confirmed. What it gives is taken from the
first log of the receipt that is read as its own event, whatever other logs stand around it, and the
setup of a validator set gives the members of all such logs in their order.
-/

namespace Valset

/-! ## Events in receipts -/

namespace Receipt

variable
  {receipt : Receipt}
  {kind : EventKind}
  {event : Event}

/-- An event is the one of the first log that is read as an event of a kind. -/
def First (receipt : Receipt) (kind : EventKind) (event : Event) : Prop :=
  ∃ before log after, receipt.logs = before ++ log :: after ∧
    Event.ofLogAs kind log = .ok event ∧
    ∀ earlier ∈ before, ∀ other, Event.ofLogAs kind earlier ≠ .ok other

/-- No log is read as an event of a kind. -/
def Lacks (receipt : Receipt) (kind : EventKind) : Prop :=
  ∀ log ∈ receipt.logs, ∀ event, Event.ofLogAs kind log ≠ .ok event

theorem ofLogAs?_eq_none_iff {log : Log} :
    Event.ofLogAs? kind log = none ↔ ∀ event, Event.ofLogAs kind log ≠ .ok event := by
  simp only [Option.eq_none_iff_forall_ne_some, ne_eq, Event.ofLogAs?_eq_some_iff]

/-- An event is found if it is the first one of its kind. -/
theorem event?_eq_some_iff : receipt.event? kind = some event ↔ receipt.First kind event := by
  rw [event?, List.findSome?_eq_some_iff]
  simp only [Event.ofLogAs?_eq_some_iff, ofLogAs?_eq_none_iff, First]

/-- No event is found if there is none of its kind. -/
theorem event?_eq_none_iff : receipt.event? kind = none ↔ receipt.Lacks kind := by
  rw [event?, List.findSome?_eq_none_iff]
  simp only [ofLogAs?_eq_none_iff, Lacks]

/-- The first event of a kind is the first one among all events of the kind. -/
theorem head?_events : (receipt.events kind).head? = receipt.event? kind := by
  rw [events, List.head?_filterMap]
  rfl

end Receipt

namespace Transacting

open Operation

variable {α β : Type}

/-! ## What operations tell -/

/-- An outcome tells of the first event of a kind in a receipt, or that there is none. -/
def TellsFirst
    (kind : EventKind)
    (holds : Event → α → Prop)
    (missing : Except ManagerError α)
    (receipt : Receipt)
    (outcome : Except ManagerError α) : Prop :=
  (∃ event value, receipt.First kind event ∧ holds event value ∧ outcome = .ok value) ∨
    (receipt.Lacks kind ∧ outcome = missing)

/-- An outcome tells of the first event of a kind in a receipt, which must have one. -/
def TellsExpected
    (kind : EventKind)
    (holds : Event → α → Prop)
    (receipt : Receipt) : Except ManagerError α → Prop :=
  TellsFirst kind holds (.error (.missingEvent receipt.transactionHash kind)) receipt

/-- Values are told by the logs that are read as events of a kind: one by each such log, in the
order of the logs, and none by any other log. -/
inductive Lists
    (kind : EventKind)
    (holds : Event → α → Prop) : List Log → List α → Prop
  | nil : Lists kind holds [] []
  | event
      {log : Log}
      {logs : List Log}
      {event : Event}
      {value : α}
      {values : List α}
      (recognised : Event.ofLogAs kind log = .ok event)
      (held : holds event value)
      (rest : Lists kind holds logs values) : Lists kind holds (log :: logs) (value :: values)
  | other
      {log : Log}
      {logs : List Log}
      {values : List α}
      (unrecognised : ∀ event, Event.ofLogAs kind log ≠ .ok event)
      (rest : Lists kind holds logs values) : Lists kind holds (log :: logs) values

/-- An outcome tells of all events of a kind in a receipt. -/
def TellsAll
    (kind : EventKind)
    (holds : Event → α → Prop)
    (receipt : Receipt)
    (outcome : Except ManagerError (List α)) : Prop :=
  ∃ values, outcome = .ok values ∧ Lists kind holds receipt.logs values

/-- A field of an event has a value. -/
def Holds
    (name : String)
    (toAbi : α → AbiValue)
    (event : Event)
    (value : α) : Prop :=
  event.value? name = some (toAbi value)

/-- A field of an event has an identifier as its value. -/
def HoldsId
    (name : String)
    {kind : IdKind} : Event → Id kind → Prop :=
  Holds name fun id => .ofFixed id.hash

/-- What the outcome of an operation has to tell of the receipt of its transaction. -/
def Tells : Transacting α → Receipt → Except ManagerError α → Prop
  | .initializeValidatorSet _ _ _ _ =>
    TellsAll .registeredInitialValidator (HoldsId "validation_id")
  | .completeRegistration _ _ _ =>
    TellsExpected .completedValidatorRegistration (HoldsId "validation_id")
  | .completeRemoval _ _ _ => TellsExpected .completedValidatorRemoval (HoldsId "validation_id")
  | .completeWeightUpdate _ _ _ =>
    TellsExpected .completedValidatorWeightUpdate fun event value =>
      HoldsId "validation_id" event value.1 ∧ Holds "nonce" .ofUInt64 event value.2
  | .initiateValidatorRegistration _ _ =>
    TellsExpected .initiatedStakingValidatorRegistration (HoldsId "validation_id")
  | .initiateDelegatorRegistration _ _ _ _ =>
    TellsExpected .initiatedDelegatorRegistration (HoldsId "delegation_id")
  | .completeValidatorRegistration _ _ _ =>
    TellsExpected .completedValidatorRegistration (HoldsId "validation_id")
  | .completeValidatorRemoval _ _ _ =>
    TellsExpected .completedValidatorRemoval (HoldsId "validation_id")
  | .completeDelegatorRemoval _ _ _ _ =>
    TellsExpected .completedDelegatorRemoval fun event value =>
      Holds "rewards" .uint event value.1 ∧ Holds "fees" .uint event value.2
  | .submitUptimeProof _ _ _ _ =>
    TellsFirst .uptimeUpdated
      (fun event value => ∃ uptime, value = some uptime ∧ Holds "uptime" .ofUInt64 event uptime)
      (.ok none)
  | .completeDelegatorRegistration _ _ _ _ => fun _ outcome => outcome = .ok ()
  | .initiateValidatorRemoval _ _ _ => fun _ outcome => outcome = .ok ()
  | .initiateDelegatorRemoval _ _ _ => fun _ outcome => outcome = .ok ()
  | .resendUpdateDelegator _ _ => fun _ outcome => outcome = .ok ()
  | .claimDelegationFees _ _ => fun _ outcome => outcome = .ok ()
  | .changeValidatorRewardRecipient _ _ _ => fun _ outcome => outcome = .ok ()
  | .changeDelegatorRewardRecipient _ _ _ => fun _ outcome => outcome = .ok ()

/-- What an extraction takes from an event of a kind is what a property asks for. -/
def Extracts
    (kind : EventKind)
    (extract : Event → Option α)
    (holds : Event → α → Prop) : Prop :=
  ∀ event : Event, event.Proper → event.kind = kind →
    ∃ value, extract event = some value ∧ holds event value

section Extracts

variable
  {kind : EventKind}
  {name : String}

/-- An identifier is taken from a field of 32 bytes. -/
theorem extracts_id?
    {idKind : IdKind}
    (typed : (kind.fields.find? (·.name == name)).map (·.type) = some (.fixedBytes 32)) :
    Extracts kind (fun event => (event.id? name : Option (Id idKind))) (HoldsId name) := by
  rintro event proper rfl
  obtain ⟨field, found, typed⟩ := Option.map_eq_some_iff.mp typed
  exact proper.exists_id? idKind found typed

/-- A number of 64 bits is taken from a field for it. -/
theorem extracts_uint64?
    (typed : (kind.fields.find? (·.name == name)).map (·.type) = some (.uint 64)) :
    Extracts kind (·.uint64? name) (Holds name .ofUInt64) := by
  rintro event proper rfl
  obtain ⟨field, found, typed⟩ := Option.map_eq_some_iff.mp typed
  exact proper.exists_uint64? found typed

/-- A number is taken from a field for it. -/
theorem extracts_uint?
    (typed : (kind.fields.find? (·.name == name)).map (·.type) = some (.uint 256)) :
    Extracts kind (·.uint? name) (Holds name .uint) := by
  rintro event proper rfl
  obtain ⟨field, found, typed⟩ := Option.map_eq_some_iff.mp typed
  exact proper.exists_uint? found typed

/-- Two values may be taken from one event. -/
theorem Extracts.pair
    {first : Event → Option α}
    {second : Event → Option β}
    {holdsFirst : Event → α → Prop}
    {holdsSecond : Event → β → Prop}
    (extractsFirst : Extracts kind first holdsFirst)
    (extractsSecond : Extracts kind second holdsSecond) :
    Extracts kind (fun event => do return (← first event, ← second event))
      fun event value => holdsFirst event value.1 ∧ holdsSecond event value.2 := by
  intro event proper ofKind
  obtain ⟨value, taken, held⟩ := extractsFirst event proper ofKind
  obtain ⟨other, takenToo, heldToo⟩ := extractsSecond event proper ofKind
  refine ⟨(value, other), ?_, held, heldToo⟩
  simp [taken, takenToo]

end Extracts

/-- Extraction from the first event of a kind tells of it. -/
theorem tellsFirst_of_extracts
    {kind : EventKind}
    {extract : Event → Option α}
    {holds : Event → α → Prop}
    (extracts : Extracts kind extract holds)
    (missing : Except ManagerError α)
    (receipt : Receipt) :
    TellsFirst kind holds missing receipt
      (match (receipt.event? kind).bind extract with
        | some value => .ok value
        | none => missing) := by
  cases found : receipt.event? kind with
  | none => exact .inr ⟨Receipt.event?_eq_none_iff.mp found, rfl⟩
  | some event =>
      have first := Receipt.event?_eq_some_iff.mp found
      obtain ⟨before, log, after, split, recognised, earlier⟩ := first
      obtain ⟨value, extracted, held⟩ := extracts event
        (Event.proper_of_ofLogAs recognised) (Event.kind_of_ofLogAs recognised)
      rw [Option.bind_some, extracted]
      exact .inl ⟨event, value, ⟨before, log, after, split, recognised, earlier⟩, held, rfl⟩

section Told

variable
  {tells : Receipt → Except ManagerError α → Prop}
  {receipt : Receipt}

theorem told_pure
    {value : α}
    (told : tells receipt (.ok value)) :
    ∃ outcome, (pure value : Operation α).run = .done outcome ∧ tells receipt outcome :=
  ⟨.ok value, rfl, told⟩

/-- An event that is expected is told of, or that it is missing. -/
theorem told_expectEvent
    {kind : EventKind}
    {extract : Event → Option α}
    {holds : Event → α → Prop}
    (extracts : Extracts kind extract holds) :
    ∃ outcome, (expectEvent receipt kind extract).run = .done outcome ∧
      TellsExpected kind holds receipt outcome :=
  ⟨_, run_expectEvent _ _ _, tellsFirst_of_extracts extracts _ receipt⟩

end Told

/-- Extraction from all events of a kind tells of them. -/
theorem tellsAll_of_extracts
    {kind : EventKind}
    {extract : Event → Option α}
    {holds : Event → α → Prop}
    (extracts : Extracts kind extract holds)
    (receipt : Receipt) :
    TellsAll kind holds receipt (.ok ((receipt.events kind).filterMap extract)) := by
  refine ⟨_, rfl, ?_⟩
  rw [Receipt.events]
  induction receipt.logs with
  | nil => exact .nil
  | cons log logs inductionHypothesis =>
      cases recognised : Event.ofLogAs? kind log with
      | none =>
          rw [List.filterMap_cons_none recognised]
          exact .other (Receipt.ofLogAs?_eq_none_iff.mp recognised) inductionHypothesis
      | some event =>
          rw [List.filterMap_cons_some recognised]
          rw [Event.ofLogAs?_eq_some_iff] at recognised
          obtain ⟨value, extracted, held⟩ := extracts event
            (Event.proper_of_ofLogAs recognised) (Event.kind_of_ofLogAs recognised)
          rw [List.filterMap_cons_some extracted]
          exact .event recognised held inductionHypothesis

theorem extracts_uptime :
    Extracts .uptimeUpdated (fun event => some (event.uint64? "uptime"))
      fun event value => ∃ uptime, value = some uptime ∧
        Holds "uptime" .ofUInt64 event uptime := by
  intro event proper ofKind
  obtain ⟨uptime, taken, held⟩ :=
    @extracts_uint64? .uptimeUpdated "uptime" rfl event proper ofKind
  exact ⟨some uptime, congrArg some taken, uptime, rfl, held⟩

/-- The initiation of a registration ends by telling of its event. -/
theorem concluded_initiateValidatorRegistration
    (manager : StakingManager)
    (request : ValidatorRegistration) :
    (manager.initiateValidatorRegistration request).run.Obeys Free
      (Concluded (initiateValidatorRegistration manager request).Tells) [] := by
  apply obeys_readOne_bind trivial
  · intro reply settings _
    apply obeys_ofExcept_bind
    · intro _ _
      rcases manager with ⟨address, native | erc20, sender⟩
      · exact concluded_confirm_bind (.called _ _ reply .nil) fun _ =>
          told_expectEvent (extracts_id? rfl)
      · exact concluded_ensureAllowance_bind (.called _ _ reply .nil) fun _ =>
          told_expectEvent (extracts_id? rfl)
    · exact fun error _ => .asked .nil (.called _ _ reply error)
  · exact fun reply error _ => .asked .nil (.called _ _ reply error)

theorem concluded_confirmRemoval
    {tells : Receipt → Except ManagerError Unit → Prop}
    (manager : StakingManager)
    (function : ContractFunction)
    (id : Hash32)
    (removal : StakingManager.Removal)
    (told : ∀ receipt, tells receipt (.ok ())) :
    (manager.confirmRemoval function id removal).run.Obeys Free (Concluded tells) [] := by
  rcases removal with ⟨plain | proven, messages, index, force⟩
  · exact concluded_confirm_bind .nil fun receipt => told_pure (told receipt)
  · exact concluded_confirmWithMessages_bind fun receipt => told_pure (told receipt)

/-- Every operation that has come to its end tells of the receipt with which it was confirmed. -/
theorem concluded (operation : Transacting α) :
    operation.perform.run.Obeys Free (Concluded operation.Tells) [] := by
  cases operation with
  | initializeValidatorSet manager data messages index =>
      exact concluded_confirmWithMessages_bind fun receipt =>
        told_pure (tellsAll_of_extracts (extracts_id? rfl) receipt)
  | completeRegistration manager messages index =>
      exact concluded_confirmWithMessages_bind fun _ => told_expectEvent (extracts_id? rfl)
  | completeRemoval manager messages index =>
      exact concluded_confirmWithMessages_bind fun _ => told_expectEvent (extracts_id? rfl)
  | completeWeightUpdate manager messages index =>
      exact concluded_confirmWithMessages_bind fun _ =>
        told_expectEvent ((extracts_id? rfl).pair (extracts_uint64? rfl))
  | initiateValidatorRegistration manager request =>
      exact concluded_initiateValidatorRegistration manager request
  | initiateDelegatorRegistration manager validation amount recipient =>
      apply concluded_ofExcept_bind
      intro _ _
      apply concluded_ofExcept_bind
      intro _ _
      rcases manager with ⟨address, native | erc20, sender⟩
      · exact concluded_confirm_bind .nil fun _ => told_expectEvent (extracts_id? rfl)
      · exact concluded_ensureAllowance_bind .nil fun _ => told_expectEvent (extracts_id? rfl)
  | completeValidatorRegistration manager messages index =>
      exact concluded_confirmWithMessages_bind fun _ => told_expectEvent (extracts_id? rfl)
  | completeValidatorRemoval manager messages index =>
      exact concluded_confirmWithMessages_bind fun _ => told_expectEvent (extracts_id? rfl)
  | completeDelegatorRegistration manager delegation messages index =>
      exact concluded_confirmWithMessages_bind fun _ => told_pure rfl
  | completeDelegatorRemoval manager delegation messages index =>
      exact concluded_confirmWithMessages_bind fun _ =>
        told_expectEvent ((extracts_uint? rfl).pair (extracts_uint? rfl))
  | initiateValidatorRemoval manager validation removal =>
      exact concluded_confirmRemoval _ _ _ _ fun _ => rfl
  | initiateDelegatorRemoval manager delegation removal =>
      exact concluded_confirmRemoval _ _ _ _ fun _ => rfl
  | resendUpdateDelegator manager delegation =>
      exact concluded_confirm_bind .nil fun _ => told_pure rfl
  | submitUptimeProof manager validation messages index =>
      refine concluded_confirmWithMessages_bind fun receipt => told_pure ?_
      -- Without its event this operation succeeds all the same, and gives nothing.
      have told := tellsFirst_of_extracts extracts_uptime (.ok none) receipt
      rw [Receipt.head?_events]
      cases found : receipt.event? .uptimeUpdated <;> rw [found] at told <;> exact told
  | claimDelegationFees manager validation =>
      exact concluded_confirm_bind .nil fun _ => told_pure rfl
  | changeValidatorRewardRecipient manager validation recipient =>
      apply concluded_ofExcept_bind
      intro _ _
      exact concluded_confirm_bind .nil fun _ => told_pure rfl
  | changeDelegatorRewardRecipient manager delegation recipient =>
      apply concluded_ofExcept_bind
      intro _ _
      exact concluded_confirm_bind .nil fun _ => told_pure rfl

/-- Whatever a node answers, an operation that has come to its end succeeded only if the last thing
that it learnt is a receipt without a failure. Each accepted transaction is followed at once by the
question for its receipt, and nothing follows a receipt that is missing or reports a failure: the
outcome then names the transaction as dropped or reverted. A receipt without a failure at the end
is told of, as the operation has to. -/
theorem reports_confirmed
    (operation : Transacting α)
    {conversation : NodeConversation}
    {outcome : Except ManagerError α}
    (reached : operation.perform.run.Reaches conversation (.done outcome)) :
    (∀ value, outcome = .ok value →
      ∃ before transaction hash receipt,
        conversation =
            before ++ [sent transaction (.ok hash), awaited hash (.ok (some receipt))] ∧
          receipt.status ≠ some 0) ∧
    (∀ before transaction hash after,
      conversation = before ++ sent transaction (.ok hash) :: after →
      ∃ reply later, after = awaited hash reply :: later ∧
        (reply = .ok none → later = [] ∧ outcome = .error (.dropped hash)) ∧
        ∀ receipt, reply = .ok (some receipt) → receipt.status = some 0 →
          later = [] ∧ outcome = .error (.reverted hash)) ∧
    ∀ before transaction hash receipt,
      conversation = before ++ [sent transaction (.ok hash), awaited hash (.ok (some receipt))] →
      receipt.status ≠ some 0 → operation.Tells receipt outcome := by
  have ended : Concluded operation.Tells conversation outcome :=
    operation.concluded.atEnd_of_reaches reached
  refine ⟨?_, ?_, ?_⟩
  · rintro value rfl
    obtain ⟨before, transaction, hash, receipt, same, unreverted⟩ := ended.exists_of_ok
    exact ⟨before, transaction, hash, receipt, same, beq_eq_false_iff_ne.mp unreverted⟩
  · intro before transaction hash after same
    obtain ⟨reply, later, rfl, failed⟩ := ended.accepted same
    refine ⟨reply, later, rfl, ?_, ?_⟩
    · rintro rfl
      exact failed _ rfl
    · rintro receipt rfl reverted
      refine failed _ ?_
      rw [confirmation_some, Receipt.reverted, reverted]
      rfl
  · intro before transaction hash receipt same unreverted
    exact ended.told same (beq_eq_false_iff_ne.mpr unreverted)

/-- The event of the delegation that is made. -/
def sampleDelegated : Event where
  kind := .initiatedDelegatorRegistration
  values := [.ofFixed (.ofNat 5 : Hash32), .ofFixed (.zero : Hash32), .address .zero, .uint 1,
    .uint 103, .uint 3, .ofFixed (.zero : Hash32), .address (.ofNat 7)]

/-- The receipt of the delegation, in which the log of another event stands first. -/
def sampleReceipt : Receipt where
  transactionHash := .zero
  status := some 1
  logs := [Event.sampleLog,
    { Event.sampleLog with
      topics := sampleDelegated.kind.signatureHash ::
        sampleDelegated.topicValues.map Event.topicOf
      data := Abi.encode sampleDelegated.dataValues }]

theorem sampleReceipt_first :
    sampleReceipt.First .initiatedDelegatorRegistration sampleDelegated := by
  have proper : sampleDelegated.Proper :=
    .cons (AbiValue.admits_ofHash _) (.cons (AbiValue.admits_ofHash _) (.cons (.address _)
      (.cons (.uint (by decide)) (.cons (.uint (by decide)) (.cons (.uint (by decide))
        (.cons (AbiValue.admits_ofHash _) (.cons (.address _) .nil)))))))
  refine ⟨[Event.sampleLog], _, [], rfl, Event.ofLogAs_of_emittedAs proper ⟨rfl, rfl⟩, ?_⟩
  intro earlier present other recognised
  obtain rfl := List.mem_singleton.mp present
  have recognisedToo :=
    Event.ofLogAs_of_emittedAs Event.sampleMember_proper Event.sampleMember_emittedAs
  exact nomatch Event.kind_unique recognised recognisedToo

/-- The sample delegation is confirmed and gives the identifier of its event. -/
theorem sampleDelegation_reports :
    sampleDelegation.perform.run.Reaches
        [sent sampleStake (.ok .zero), awaited .zero (.ok (some sampleReceipt))]
        (.done (.ok ⟨.ofNat 5⟩)) ∧
      sampleReceipt.status ≠ some 0 ∧ sampleDelegation.Tells sampleReceipt (.ok ⟨.ofNat 5⟩) := by
  have told : (expectEvent sampleReceipt .initiatedDelegatorRegistration
      (·.id? "delegation_id")).run = .done (.ok (⟨.ofNat 5⟩ : DelegationId)) := by
    rw [run_expectEvent, Receipt.event?_eq_some_iff.mpr sampleReceipt_first]
    rfl
  have reached : sampleDelegation.perform.run.Reaches
      [sent sampleStake (.ok .zero), awaited .zero (.ok (some sampleReceipt))]
      (.done (.ok ⟨.ofNat 5⟩)) := by
    refine reaches_confirm_bind rfl ?_
    rw [told]
    exact .start _
  obtain ⟨_, _, tells⟩ := reports_confirmed sampleDelegation reached
  exact ⟨reached, by decide, tells [] _ _ _ rfl (by decide)⟩

end Transacting
end Valset
