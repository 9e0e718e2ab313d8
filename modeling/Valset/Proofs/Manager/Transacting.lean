import Valset.Manager.StakingManager
import Valset.Manager.ValidatorManager
import Valset.Proofs.Bytes
import Valset.Proofs.Except
import Valset.Proofs.Manager.Allowance
import Valset.Proofs.Validator.Check
import Valset.Proofs.Warp

/-!
# Operations that send transactions

The operations of both managers that change the chain. Each of them makes its checks first, and once
a transaction has been attempted no check is left that could reject the request. What a transaction
rests on, be it terms that were read or an index that names a message, was therefore settled before
it was sent.
-/

namespace Valset

/-- Whether an error reports that a check of the client rejected a request. -/
def ManagerError.isRejection : ManagerError → Bool
  | .preflight _ => true
  | .message _ => true
  | _ => false

/-- An operation that sends transactions, by the type of its result. -/
inductive Transacting : Type → Type
  | initializeValidatorSet
      (manager : ValidatorManager)
      (data : ConversionData)
      (messages : List Bytes)
      (index : UInt32) : Transacting (List ValidationId)
  | completeRegistration
      (manager : ValidatorManager)
      (messages : List Bytes)
      (index : UInt32) : Transacting ValidationId
  | completeRemoval
      (manager : ValidatorManager)
      (messages : List Bytes)
      (index : UInt32) : Transacting ValidationId
  | completeWeightUpdate
      (manager : ValidatorManager)
      (messages : List Bytes)
      (index : UInt32) : Transacting (ValidationId × UInt64)
  | initiateValidatorRegistration
      (manager : StakingManager)
      (request : ValidatorRegistration) : Transacting ValidationId
  | initiateDelegatorRegistration
      (manager : StakingManager)
      (validation : ValidationId)
      (amount : U256)
      (recipient : Address) : Transacting DelegationId
  | completeValidatorRegistration
      (manager : StakingManager)
      (messages : List Bytes)
      (index : UInt32) : Transacting ValidationId
  | completeValidatorRemoval
      (manager : StakingManager)
      (messages : List Bytes)
      (index : UInt32) : Transacting ValidationId
  | completeDelegatorRegistration
      (manager : StakingManager)
      (delegation : DelegationId)
      (messages : List Bytes)
      (index : UInt32) : Transacting Unit
  | completeDelegatorRemoval
      (manager : StakingManager)
      (delegation : DelegationId)
      (messages : List Bytes)
      (index : UInt32) : Transacting (U256 × U256)
  | initiateValidatorRemoval
      (manager : StakingManager)
      (validation : ValidationId)
      (removal : StakingManager.Removal) : Transacting Unit
  | initiateDelegatorRemoval
      (manager : StakingManager)
      (delegation : DelegationId)
      (removal : StakingManager.Removal) : Transacting Unit
  | resendUpdateDelegator
      (manager : StakingManager)
      (delegation : DelegationId) : Transacting Unit
  | submitUptimeProof
      (manager : StakingManager)
      (validation : ValidationId)
      (messages : List Bytes)
      (index : UInt32) : Transacting (Option UInt64)
  | claimDelegationFees
      (manager : StakingManager)
      (validation : ValidationId) : Transacting Unit
  | changeValidatorRewardRecipient
      (manager : StakingManager)
      (validation : ValidationId)
      (recipient : Address) : Transacting Unit
  | changeDelegatorRewardRecipient
      (manager : StakingManager)
      (delegation : DelegationId)
      (recipient : Address) : Transacting Unit

namespace Transacting

open Operation

variable {α β : Type}

/-- Does what an operation is. -/
def perform : Transacting α → Operation α
  | .initializeValidatorSet manager data messages index =>
    manager.initializeValidatorSet data messages index
  | .completeRegistration manager messages index => manager.completeRegistration messages index
  | .completeRemoval manager messages index => manager.completeRemoval messages index
  | .completeWeightUpdate manager messages index => manager.completeWeightUpdate messages index
  | .initiateValidatorRegistration manager request => manager.initiateValidatorRegistration request
  | .initiateDelegatorRegistration manager validation amount recipient =>
    manager.initiateDelegatorRegistration validation amount recipient
  | .completeValidatorRegistration manager messages index =>
    manager.completeValidatorRegistration messages index
  | .completeValidatorRemoval manager messages index =>
    manager.completeValidatorRemoval messages index
  | .completeDelegatorRegistration manager delegation messages index =>
    manager.completeDelegatorRegistration delegation messages index
  | .completeDelegatorRemoval manager delegation messages index =>
    manager.completeDelegatorRemoval delegation messages index
  | .initiateValidatorRemoval manager validation removal =>
    manager.initiateValidatorRemoval validation removal
  | .initiateDelegatorRemoval manager delegation removal =>
    manager.initiateDelegatorRemoval delegation removal
  | .resendUpdateDelegator manager delegation => manager.resendUpdateDelegator delegation
  | .submitUptimeProof manager validation messages index =>
    manager.submitUptimeProof validation messages index
  | .claimDelegationFees manager validation => manager.claimDelegationFees validation
  | .changeValidatorRewardRecipient manager validation recipient =>
    manager.changeValidatorRewardRecipient validation recipient
  | .changeDelegatorRewardRecipient manager delegation recipient =>
    manager.changeDelegatorRewardRecipient delegation recipient

/-- What has to be settled in a conversation before an operation may send anything. -/
def Cleared : Transacting α → NodeConversation → Prop
  | .initiateValidatorRegistration manager request, history =>
    request.rewardRecipient ≠ .zero ∧
      ∃ settings, Answered history manager.address StakingManagerContract.getStakingManagerSettings
          [] StakingSettings.ofAbi? settings ∧
        request.check settings = .ok ()
  | .initiateDelegatorRegistration _ _ amount recipient, _ => amount ≠ 0 ∧ recipient ≠ .zero
  | .initializeValidatorSet _ _ messages index, _ => index.toNat < messages.length
  | .completeRegistration _ messages index, _ => index.toNat < messages.length
  | .completeRemoval _ messages index, _ => index.toNat < messages.length
  | .completeWeightUpdate _ messages index, _ => index.toNat < messages.length
  | .completeValidatorRegistration _ messages index, _ => index.toNat < messages.length
  | .completeValidatorRemoval _ messages index, _ => index.toNat < messages.length
  | .completeDelegatorRegistration _ _ messages index, _ => index.toNat < messages.length
  | .completeDelegatorRemoval _ _ messages index, _ => index.toNat < messages.length
  | .submitUptimeProof _ _ messages index, _ => index.toNat < messages.length
  | .initiateValidatorRemoval _ _ removal, _ =>
    removal.includeUptimeProof → removal.index.toNat < removal.messages.length
  | .initiateDelegatorRemoval _ _ removal, _ =>
    removal.includeUptimeProof → removal.index.toNat < removal.messages.length
  | .changeValidatorRewardRecipient _ _ recipient, _ => recipient ≠ .zero
  | .changeDelegatorRewardRecipient _ _ recipient, _ => recipient ≠ .zero
  | .resendUpdateDelegator _ _, _ => True
  | .claimDelegationFees _ _, _ => True

/-! ## Steps that reject nothing -/

/-- An operation that never ends in a rejection. -/
def Unrejecting (operation : Operation α) : Prop :=
  ∀ history, operation.run.Obeys (fun _ _ => True)
    (fun _ outcome => ∀ error, outcome = .error error → error.isRejection = false) history

theorem isRejection_ofCall (cause : NodeError) :
    (ManagerError.ofCall (.ofNodeError cause)).isRejection = false := by
  rcases cause with error | text
  · rw [CallError.ofNodeError]
    cases error.revertData? <;> rfl
  · rfl

/-- No reading fails by a rejection. -/
theorem isRejection_of_resultOf
    {function : ContractFunction}
    {extract : AbiValue → Option α}
    {reply : Except NodeError Bytes}
    {error : ManagerError}
    (failed : resultOf function extract reply = .error error) :
    error.isRejection = false := by
  rcases reply with cause | data
  · obtain rfl := Except.error.inj failed
    exact isRejection_ofCall cause
  · rw [resultOf_ok] at failed
    split at failed
    · obtain rfl := Except.error.inj failed
      rfl
    · split at failed
      · cases failed
      · obtain rfl := Except.error.inj failed
        rfl

/-- No confirmation fails by a rejection. -/
theorem isRejection_of_confirmation
    {hash : Hash32}
    {reply : Except NodeError (Option Receipt)}
    {error : ManagerError}
    (failed : confirmation hash reply = .error error) :
    error.isRejection = false := by
  rcases reply with cause | _ | receipt
  · obtain rfl := Except.error.inj failed
    rfl
  · obtain rfl := Except.error.inj failed
    rfl
  · rw [confirmation_some] at failed
    split at failed
    · obtain rfl := Except.error.inj failed
      rfl
    · cases failed

theorem unrejecting_pure (value : α) : Unrejecting (pure value) := by
  intro history error failed
  cases failed

theorem unrejecting_expectEvent
    (receipt : Receipt)
    (kind : EventKind)
    (extract : Event → Option α) :
    Unrejecting (expectEvent receipt kind extract) := by
  intro history
  apply obeys_expectEvent
  · intro value error failed
    cases failed
  · intro error failed
    obtain rfl := Except.error.inj failed
    rfl

/-- A read rejects nothing if what follows does not. -/
theorem Unrejecting.readOne_bind
    {contract : Address}
    {function : ContractFunction}
    {arguments : List AbiValue}
    {extract : AbiValue → Option α}
    {next : α → Operation β}
    (unrejecting : ∀ value, Unrejecting (next value)) :
    Unrejecting (readOne contract function arguments extract >>= next) := by
  intro history
  apply obeys_readOne_bind trivial
  · intro reply value _
    exact unrejecting value _
  · intro reply error failed _ same
    obtain rfl := Except.error.inj same
    exact isRejection_of_resultOf failed

theorem Unrejecting.confirm_bind
    {transaction : Transaction}
    {next : Receipt → Operation β}
    (unrejecting : ∀ receipt, Unrejecting (next receipt)) :
    Unrejecting (confirm transaction >>= next) := by
  intro history
  apply obeys_confirm_bind trivial
  · intro cause error same
    obtain rfl := Except.error.inj same
    exact isRejection_ofCall cause
  · intro hash
    trivial
  · intro hash reply receipt _
    exact unrejecting receipt _
  · intro hash reply error failed _ same
    obtain rfl := Except.error.inj same
    exact isRejection_of_confirmation failed

/-- Two operations one after the other reject nothing if neither does. -/
theorem Unrejecting.bind
    {step : Operation α}
    {next : α → Operation β}
    (first : Unrejecting step)
    (second : ∀ value, Unrejecting (next value)) :
    Unrejecting (step >>= next) := by
  intro history
  apply obeys_bind (first history)
  · intro later value _
    exact second value later
  · intro later error unrejected other same
    obtain rfl := Except.error.inj same
    exact unrejected _ rfl

theorem unrejecting_ensureAllowance (manager : StakingManager) (amount : U256) :
    Unrejecting (manager.ensureAllowance amount) := by
  intro history
  cases kind : manager.kind with
  | native =>
      rw [StakingManager.ensureAllowance_of_native kind]
      exact unrejecting_pure () history
  | erc20 =>
      cases known : manager.sender with
      | none =>
          rw [StakingManager.ensureAllowance_of_unknown kind known]
          apply Unrejecting.readOne_bind
          intro token
          exact .confirm_bind fun _ => unrejecting_pure ()
      | some sender =>
          rw [StakingManager.ensureAllowance_of_known kind known]
          apply Unrejecting.readOne_bind
          intro token
          apply Unrejecting.readOne_bind
          intro allowance
          split
          · exact unrejecting_pure ()
          · exact .confirm_bind fun _ => unrejecting_pure ()

/-! ## Checks before transactions -/

/-- Transactions are sent only behind conversations that settle what they rest on. -/
def SendsOnly
    (cleared : NodeConversation → Prop)
    (history : NodeConversation) : NodeQuestion → Prop
  | .send _ => cleared history
  | _ => True

/-- A conversation that ends in a rejection attempts no transaction. -/
def Unsent
    (history : NodeConversation)
    (outcome : Except ManagerError α) : Prop :=
  ∀ error, outcome = .error error → error.isRejection → attempted history = []

/-- Once everything is settled, an operation that rejects nothing may send what it likes. -/
theorem Unrejecting.guarded
    {operation : Operation α}
    {cleared : NodeConversation → Prop}
    {history : NodeConversation}
    (unrejecting : Unrejecting operation)
    (settled : ∀ further, cleared (history ++ further)) :
    operation.run.Obeys (SendsOnly cleared) Unsent history := by
  apply (unrejecting history).mono
  · intro further question _
    cases question with
    | send transaction => exact settled further
    | _ => trivial
  · intro further outcome unrejected error same rejection
    rw [unrejected error same] at rejection
    contradiction

/-- A check in front keeps an operation guarded as long as nothing has been attempted. -/
theorem guarded_ofExcept_bind
    {check : Except ManagerError α}
    {next : α → Operation β}
    {cleared : NodeConversation → Prop}
    {history : NodeConversation}
    (nothing : attempted history = [])
    (passed : ∀ value, check = .ok value →
      (next value).run.Obeys (SendsOnly cleared) Unsent history) :
    (ofExcept check >>= next).run.Obeys (SendsOnly cleared) Unsent history :=
  obeys_ofExcept_bind passed fun _ _ _ _ _ => nothing

/-- Signed messages are sent only if there is one at the index. -/
theorem guarded_confirmWithMessages_bind
    {transaction : Transaction}
    {messages : List Bytes}
    {index : UInt32}
    {next : Receipt → Operation α}
    {cleared : NodeConversation → Prop}
    (settled : index.toNat < messages.length → ∀ history, cleared history)
    (unrejecting : ∀ receipt, Unrejecting (next receipt)) :
    (confirmWithMessages transaction messages index >>= next).run.Obeys
      (SendsOnly cleared) Unsent [] := by
  rw [confirmWithMessages, run_bind_assoc]
  apply guarded_ofExcept_bind attempted_nil
  intro attached attachedOk
  cases attaching : Warp.attach transaction messages index with
  | error cause =>
      rw [attaching] at attachedOk
      cases attachedOk
  | ok carrier =>
      obtain ⟨named, -⟩ := Warp.attach_eq_ok_iff.mp attaching
      exact (Unrejecting.confirm_bind unrejecting).guarded fun further => settled named _

/-- A request that passes all checks names a recipient. -/
theorem rewardRecipient_ne_zero_of_check
    {request : ValidatorRegistration}
    {settings : StakingSettings}
    (passed : request.check settings = .ok ()) :
    request.rewardRecipient ≠ .zero :=
  (request.judged_check settings).eq_ok_iff.mp passed
    ⟨request.rewardRecipient ≠ .zero, .preflight .zeroRecipient⟩
    (by simp [ValidatorRegistration.conditions])

/-- A registration is sent only once the request has passed the check against the terms that were
read. -/
theorem guarded_initiateValidatorRegistration
    (manager : StakingManager)
    (request : ValidatorRegistration) :
    (manager.initiateValidatorRegistration request).run.Obeys
      (SendsOnly (initiateValidatorRegistration manager request).Cleared) Unsent [] := by
  apply obeys_readOne_bind trivial
  · intro reply settings settingsRead
    apply guarded_ofExcept_bind rfl
    intro _ passed
    apply Unrejecting.guarded
    · rcases manager with ⟨address, native | erc20, sender⟩
      · exact .confirm_bind fun _ => unrejecting_expectEvent _ _ _
      · apply Unrejecting.bind (unrejecting_ensureAllowance _ _)
        intro _
        exact .confirm_bind fun _ => unrejecting_expectEvent _ _ _
    · intro further
      refine ⟨rewardRecipient_ne_zero_of_check passed, settings, ?_, passed⟩
      simp [settingsRead]
  · intro _ _ _ _ _ _
    rfl

/-- A delegation is sent only for an amount and a recipient that are not zero. -/
theorem guarded_initiateDelegatorRegistration
    (manager : StakingManager)
    (validation : ValidationId)
    (amount : U256)
    (recipient : Address) :
    (manager.initiateDelegatorRegistration validation amount recipient).run.Obeys
      (SendsOnly (initiateDelegatorRegistration manager validation amount recipient).Cleared)
      Unsent [] := by
  apply guarded_ofExcept_bind rfl
  intro _ recipientPassed
  apply guarded_ofExcept_bind rfl
  intro ⟨⟩ amountPassed
  apply Unrejecting.guarded
  · rcases manager with ⟨address, native | erc20, sender⟩
    · exact .confirm_bind fun _ => unrejecting_expectEvent _ _ _
    · apply Unrejecting.bind (unrejecting_ensureAllowance _ _)
      intro _
      exact .confirm_bind fun _ => unrejecting_expectEvent _ _ _
  · intro further
    constructor
    · simpa [ensure_eq_ok_iff] using amountPassed
    · exact checkRecipient_eq_ok_iff.mp recipientPassed

/-- A removal is sent with a message if it includes a proof, and as it is otherwise. -/
theorem guarded_confirmRemoval
    {cleared : NodeConversation → Prop}
    (manager : StakingManager)
    (function : ContractFunction)
    (id : Hash32)
    (removal : StakingManager.Removal)
    (settled : (removal.includeUptimeProof → removal.index.toNat < removal.messages.length) →
      ∀ history, cleared history) :
    (manager.confirmRemoval function id removal).run.Obeys (SendsOnly cleared) Unsent [] := by
  rcases removal with ⟨plain | proven, messages, index, force⟩
  · apply Unrejecting.guarded
    · exact .confirm_bind fun _ => unrejecting_pure ()
    · intro further
      exact settled nofun _
  · apply guarded_confirmWithMessages_bind
    · intro named
      exact settled fun _ => named
    · intro _
      exact unrejecting_pure ()

/-- No operation sends a transaction before everything that it rests on is settled, and none of them
ends in a rejection behind a transaction. -/
theorem guarded (operation : Transacting α) :
    operation.perform.run.Obeys (SendsOnly operation.Cleared) Unsent [] := by
  cases operation with
  | initiateValidatorRegistration manager request =>
      exact guarded_initiateValidatorRegistration manager request
  | initiateDelegatorRegistration manager validation amount recipient =>
      exact guarded_initiateDelegatorRegistration manager validation amount recipient
  | initiateValidatorRemoval manager validation removal =>
      exact guarded_confirmRemoval _ _ _ _ fun named _ => named
  | initiateDelegatorRemoval manager delegation removal =>
      exact guarded_confirmRemoval _ _ _ _ fun named _ => named
  | changeValidatorRewardRecipient manager validation recipient =>
      apply guarded_ofExcept_bind rfl
      intro _ recipientPassed
      exact Unrejecting.guarded (.confirm_bind fun _ => unrejecting_pure ())
        fun _ => checkRecipient_eq_ok_iff.mp recipientPassed
  | changeDelegatorRewardRecipient manager delegation recipient =>
      apply guarded_ofExcept_bind rfl
      intro _ recipientPassed
      exact Unrejecting.guarded (.confirm_bind fun _ => unrejecting_pure ())
        fun _ => checkRecipient_eq_ok_iff.mp recipientPassed
  | resendUpdateDelegator manager delegation =>
      exact Unrejecting.guarded (.confirm_bind fun _ => unrejecting_pure ()) fun _ => trivial
  | claimDelegationFees manager validation =>
      exact Unrejecting.guarded (.confirm_bind fun _ => unrejecting_pure ()) fun _ => trivial
  | initializeValidatorSet manager data messages index =>
      exact guarded_confirmWithMessages_bind (fun named _ => named) fun _ => unrejecting_pure _
  | submitUptimeProof manager validation messages index =>
      exact guarded_confirmWithMessages_bind (fun named _ => named) fun _ => unrejecting_pure _
  | completeDelegatorRegistration manager delegation messages index =>
      exact guarded_confirmWithMessages_bind (fun named _ => named) fun _ => unrejecting_pure _
  | _ =>
      -- The other completions end with the event that reports them.
      exact guarded_confirmWithMessages_bind (fun named _ => named)
        fun _ => unrejecting_expectEvent _ _ _

/-- At every moment of every conversation with a node, whatever the node answers: a rejected
operation has attempted no transaction, and everything was settled in front of each transaction that
was attempted. -/
theorem checked_before_sending
    (operation : Transacting α)
    {conversation : NodeConversation}
    {rest : Program NodeDialogue (Except ManagerError α)}
    (reached : operation.perform.run.Reaches conversation rest) :
    (∀ error, rest = .done (.error error) → error.isRejection → attempted conversation = []) ∧
      ∀ before transaction reply after,
        conversation = before ++ sent transaction reply :: after →
          operation.Cleared before := by
  constructor
  · rintro error rfl rejection
    exact operation.guarded.atEnd_of_reaches reached error rfl rejection
  · rintro before transaction reply after rfl
    exact operation.guarded.permits_of_reaches reached

/-- A delegation with value to a native manager. -/
def sampleDelegation : Transacting DelegationId :=
  .initiateDelegatorRegistration ⟨.zero, .native, none⟩ ⟨.zero⟩ 3 (.ofNat 7)

/-- The transaction by which the delegation is made. -/
def sampleStake : Transaction :=
  { callOf .zero StakingManagerContract.initiateDelegatorRegistrationNative
      [.ofFixed (.zero : Hash32), .address (.ofNat 7)] with value := 3 }

/-- The sample delegation has passed its checks before it is sent, and is refused by the node only.
-/
theorem sampleDelegation_checked :
    ∃ rest, sampleDelegation.perform.run.Reaches
        [sent sampleStake (.error (.transport "refused"))] rest ∧
      (∀ error, rest = .done (.error error) → error.isRejection = false) ∧
      sampleDelegation.Cleared [] := by
  have reached : sampleDelegation.perform.run.Reaches
      [sent sampleStake (.error (.transport "refused"))]
      (.done (.error (.ofCall (.ofNodeError (.transport "refused"))))) :=
    .turn _ (.start _)
  obtain ⟨rejectedUnsent, cleared⟩ := checked_before_sending sampleDelegation reached
  refine ⟨_, reached, ?_, cleared [] sampleStake _ [] rfl⟩
  intro error same
  by_contra rejection
  exact List.cons_ne_nil _ _ (rejectedUnsent error same (by simpa using rejection))

end Transacting
end Valset
