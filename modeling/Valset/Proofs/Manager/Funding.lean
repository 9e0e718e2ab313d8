import Valset.Proofs.Abi
import Valset.Proofs.Contract.RoundTrip
import Valset.Proofs.Manager.Transacting

/-!
# Stake

A staking manager takes stake when a validator is registered and when an amount is delegated. Either
way the stake is taken by one transaction. A native manager takes it as the value of that
transaction; any other one takes it from the sender's allowance, which the conversation has to cover
before: by the answer to a question, or by an approval that a receipt confirms.
-/

namespace Valset

/-- What takes stake, by the type of its result. -/
inductive Stake : Type → Type
  | validator (request : ValidatorRegistration) : Stake ValidationId
  | delegation
      (validation : ValidationId)
      (amount : U256)
      (recipient : Address) : Stake DelegationId

namespace StakingManager

open Operation

/-! ## What the conversation says about allowances -/

/-- A token was read as the one in which a manager takes stake. -/
def TokenRead
    (manager : StakingManager)
    (history : NodeConversation)
    (token : Address) : Prop :=
  Answered history manager.address StakingManagerContract.erc20 [] (·.address?) token

/-- An amount was read as the one that a manager may take of a token from the sender, who is
known. -/
def AllowanceRead
    (manager : StakingManager)
    (history : NodeConversation)
    (token : Address)
    (allowance : U256) : Prop :=
  ∃ sender, manager.sender = some sender ∧
    Answered history token TokenContract.allowance [.address sender, .address manager.address]
      (·.uint?) allowance

/-- An allowance that was read covers an amount. -/
def Covers
    (manager : StakingManager)
    (amount : U256)
    (history : NodeConversation) : Prop :=
  ∃ token allowance, manager.TokenRead history token ∧
    manager.AllowanceRead history token allowance ∧ amount ≤ allowance

/-- The token was read, and its allowance is not known or lies below an amount. -/
def Lacks
    (manager : StakingManager)
    (amount : U256)
    (history : NodeConversation)
    (token : Address) : Prop :=
  manager.TokenRead history token ∧
    (manager.sender = none ∨
      ∃ allowance, manager.AllowanceRead history token allowance ∧ allowance < amount)

/-- The token was read, and the approval of an amount was confirmed by a receipt that does not
report a failure. -/
def Approved
    (manager : StakingManager)
    (amount : U256)
    (history : NodeConversation)
    (token : Address) : Prop :=
  manager.TokenRead history token ∧
    ∃ hash receipt, sent (manager.approval token amount) (.ok hash) ∈ history ∧
      awaited hash (.ok (some receipt)) ∈ history ∧ receipt.reverted = false

/-- An exchange that a stake may go on behind: a token or an allowance was read, a transaction was
accepted or confirmed. -/
def Succeeds (manager : StakingManager) : Exchange NodeDialogue → Prop
  | ⟨.call contract data, reply⟩ =>
    (∃ token, contract = manager.address ∧ data = StakingManagerContract.erc20.callData [] ∧
        resultOf StakingManagerContract.erc20 (·.address?) reply = .ok token) ∨
      ∃ sender allowance, manager.sender = some sender ∧
        data = TokenContract.allowance.callData [.address sender, .address manager.address] ∧
        resultOf TokenContract.allowance (·.uint?) reply = .ok allowance
  | ⟨.send _, reply⟩ => ∃ hash, reply = .ok hash
  | ⟨.receipt hash, reply⟩ => ∃ receipt, confirmation hash reply = .ok receipt
  | _ => False

theorem succeeds_called_token
    {manager : StakingManager}
    {reply : Except NodeError Bytes}
    {token : Address}
    (result : resultOf StakingManagerContract.erc20 (·.address?) reply = .ok token) :
    manager.Succeeds
      (called manager.address (StakingManagerContract.erc20.callData []) reply) :=
  .inl ⟨token, rfl, rfl, result⟩

theorem succeeds_sent
    (manager : StakingManager)
    (transaction : Transaction)
    (hash : Hash32) :
    manager.Succeeds (sent transaction (.ok hash)) :=
  ⟨hash, rfl⟩

theorem succeeds_awaited
    {manager : StakingManager}
    {hash : Hash32}
    {reply : Except NodeError (Option Receipt)}
    {receipt : Receipt}
    (confirmed : confirmation hash reply = .ok receipt) :
    manager.Succeeds (awaited hash reply) :=
  ⟨receipt, confirmed⟩

/-- A transaction that is refused is a failure. -/
theorem not_succeeds_sent
    (manager : StakingManager)
    (transaction : Transaction)
    (cause : NodeError) :
    ¬ manager.Succeeds (sent transaction (.error cause)) := by
  rintro ⟨hash, accepted⟩
  cases accepted

/-- A transaction that is not confirmed is a failure. -/
theorem not_succeeds_awaited
    {manager : StakingManager}
    {hash : Hash32}
    {reply : Except NodeError (Option Receipt)}
    {error : ManagerError}
    (failed : confirmation hash reply = .error error) :
    ¬ manager.Succeeds (awaited hash reply) := by
  rintro ⟨receipt, confirmed⟩
  rw [failed] at confirmed
  contradiction

/-- The questions for the token and for an allowance are told apart by their lengths. -/
theorem callData_erc20_ne_allowance (first second : Address) :
    StakingManagerContract.erc20.callData [] ≠
      TokenContract.allowance.callData [.address first, .address second] := by
  intro same
  have lengths := congrArg List.length same
  simp [ContractFunction.callData, Abi.encode, Abi.encodeParts, Abi.encodeValue, Abi.Part.layout,
    Abi.Part.heads, Abi.Part.tails, FixedBytes.length_bytes] at lengths

/-- A token that could not be read is a failure. -/
theorem not_succeeds_called_token
    {manager : StakingManager}
    {reply : Except NodeError Bytes}
    {error : ManagerError}
    (failed : resultOf StakingManagerContract.erc20 (·.address?) reply = .error error) :
    ¬ manager.Succeeds
      (called manager.address (StakingManagerContract.erc20.callData []) reply) := by
  rintro (⟨token, -, -, result⟩ | ⟨sender, allowance, -, same, -⟩)
  · rw [failed] at result
    contradiction
  · exact callData_erc20_ne_allowance _ _ same

/-- An allowance that could not be read is a failure. -/
theorem not_succeeds_called_allowance
    {manager : StakingManager}
    {first second token : Address}
    {reply : Except NodeError Bytes}
    {error : ManagerError}
    (failed : resultOf TokenContract.allowance (·.uint?) reply = .error error) :
    ¬ manager.Succeeds
      (called token (TokenContract.allowance.callData [.address first, .address second])
        reply) := by
  rintro (⟨other, -, same, -⟩ | ⟨sender, allowance, -, -, result⟩)
  · exact callData_erc20_ne_allowance _ _ same.symm
  · rw [failed] at result
    contradiction

section Reading

variable
  {manager : StakingManager}
  {sender token : Address}
  {reply allowanceReply : Except NodeError Bytes}

/-- Behind the questions for the token and for its allowance, the token is the answer to the first
one. -/
theorem tokenRead_iff {other : Address} :
    manager.TokenRead
        [called manager.address (StakingManagerContract.erc20.callData []) reply,
          called token
            (TokenContract.allowance.callData [.address sender, .address manager.address])
            allowanceReply] other ↔
      resultOf StakingManagerContract.erc20 (·.address?) reply = .ok other := by
  simp [TokenRead, callData_erc20_ne_allowance]

/-- Behind the questions for the token and for its allowance, the allowance is the answer to the
second one. -/
theorem allowanceRead_iff
    {other : Address}
    {allowance : U256}
    (known : manager.sender = some sender) :
    manager.AllowanceRead
        [called manager.address (StakingManagerContract.erc20.callData []) reply,
          called token
            (TokenContract.allowance.callData [.address sender, .address manager.address])
            allowanceReply] other allowance ↔
      other = token ∧
        resultOf TokenContract.allowance (·.uint?) allowanceReply = .ok allowance := by
  simp [AllowanceRead, known, (callData_erc20_ne_allowance _ _).symm]

/-- A conversation in which token and allowance are read has gone well. -/
theorem succeeds_readings
    {allowance : U256}
    (known : manager.sender = some sender)
    (tokenResult : resultOf StakingManagerContract.erc20 (·.address?) reply = .ok token)
    (allowanceResult : resultOf TokenContract.allowance (·.uint?) allowanceReply = .ok allowance) :
    ∀ exchange ∈
      [called manager.address (StakingManagerContract.erc20.callData []) reply,
        called token (TokenContract.allowance.callData [.address sender, .address manager.address])
          allowanceReply],
      manager.Succeeds exchange := by
  simp only [List.forall_mem_cons, List.not_mem_nil, false_implies, implies_true, and_true]
  exact ⟨succeeds_called_token tokenResult, .inr ⟨sender, allowance, known, rfl, allowanceResult⟩⟩

end Reading

/-- What an allowance lacks it lacks for the rest of the conversation. -/
theorem Lacks.append
    {manager : StakingManager}
    {amount : U256}
    {history : NodeConversation}
    {token : Address}
    (lacks : manager.Lacks amount history token)
    (later : NodeConversation) :
    manager.Lacks amount (history ++ later) token := by
  obtain ⟨tokenRead, unknown | ⟨allowance, ⟨sender, known, allowanceRead⟩, below⟩⟩ := lacks
  · exact ⟨answered_append.mpr (.inl tokenRead), .inl unknown⟩
  · exact ⟨answered_append.mpr (.inl tokenRead),
      .inr ⟨allowance, ⟨sender, known, answered_append.mpr (.inl allowanceRead)⟩, below⟩⟩

/-- A stake may be taken: nothing failed, and either nothing was sent because nothing is lacking, or
the approval alone was sent and is confirmed. -/
structure Secured
    (manager : StakingManager)
    (amount : U256)
    (history : NodeConversation) : Prop where
  succeeded : ∀ exchange ∈ history, manager.Succeeds exchange
  covered :
    (attempted history = [] ∧ (manager.kind = .native ∨ manager.Covers amount history)) ∨
      (manager.kind = .erc20 ∧
        ∃ token, attempted history = [manager.approval token amount] ∧
          manager.Approved amount history token)

/-- What may be asked while a stake is taken by one transaction: nothing behind a failure, an
approval where one is lacking, and the transaction once the stake is secured. -/
def Orderly
    (manager : StakingManager)
    (amount : U256)
    (claim : Transaction)
    (history : NodeConversation)
    (question : NodeQuestion) : Prop :=
  (∀ exchange ∈ history, manager.Succeeds exchange) ∧
    ∀ transaction, question = .send transaction →
      (manager.kind = .erc20 ∧ attempted history = [] ∧
          ∃ token, manager.Lacks amount history token ∧
            transaction = manager.approval token amount) ∨
        (transaction = claim ∧ manager.Secured amount history)

/-- Every approval that a conversation shows to be lacking was attempted. -/
def Remedied
    (manager : StakingManager)
    (amount : U256)
    (history : NodeConversation) : Prop :=
  ∀ token, manager.Lacks amount history token →
    manager.approval token amount ∈ attempted history

/-- What the allowance step leaves behind. -/
structure Ensured
    (manager : StakingManager)
    (amount : U256)
    (history : NodeConversation)
    (outcome : Except ManagerError Unit) : Prop where
  secured : outcome = .ok () → manager.Secured amount history
  remedied : manager.kind = .erc20 → manager.Remedied amount history
  native : manager.kind = .native → outcome = .ok ()
  failed : ∀ error, outcome = .error error → ∃ exchange ∈ history, ¬ manager.Succeeds exchange

section Allowance

variable
  {manager : StakingManager}
  {amount : U256}
  {claim : Transaction}
  {history : NodeConversation}

theorem not_native_of_erc20 (erc20 : manager.kind = .erc20) : manager.kind ≠ .native := by
  simp [erc20]

/-- Once an approval is found to be lacking, sending it is in order and, if it is confirmed, secures
the stake. -/
theorem obeys_confirm_approval
    {token : Address}
    (erc20 : manager.kind = .erc20)
    (succeeded : ∀ exchange ∈ history, manager.Succeeds exchange)
    (nothing : attempted history = [])
    (lacks : manager.Lacks amount history token)
    (only : ∀ other, manager.TokenRead history other → other = token) :
    (confirm (manager.approval token amount) >>= fun _ => pure ()).run.Obeys
      (manager.Orderly amount claim) (manager.Ensured amount) history := by
  have notNative := not_native_of_erc20 erc20
  have remedied (reply : Except NodeError Hash32) (later : NodeConversation)
      (silent : ∀ other, manager.TokenRead (history ++ sent (manager.approval token amount) reply ::
        later) other → manager.TokenRead history other) :
      manager.Remedied amount
        (history ++ sent (manager.approval token amount) reply :: later) := by
    intro other otherLacks
    rw [only other (silent other otherLacks.1)]
    simp
  apply obeys_confirm_bind
  · refine ⟨succeeded, ?_⟩
    rintro transaction same
    obtain rfl := NodeQuestion.send.inj same
    exact .inl ⟨erc20, nothing, token, lacks, rfl⟩
  · intro cause
    refine ⟨nofun, fun _ => remedied _ [] ?_, fun native => absurd native notNative, ?_⟩
    · intro other read
      simpa [TokenRead] using read
    · exact fun _ _ => ⟨_, List.mem_concat_self, manager.not_succeeds_sent _ cause⟩
  · intro hash
    refine ⟨?_, nofun⟩
    simpa [or_imp, forall_and] using ⟨succeeded, manager.succeeds_sent _ hash⟩
  · intro hash reply receipt confirmed
    refine ⟨fun _ => ⟨?_, ?_⟩, fun _ => remedied _ _ ?_, fun _ => rfl, nofun⟩
    · simpa [or_imp, forall_and] using
        ⟨succeeded, manager.succeeds_sent _ hash, succeeds_awaited confirmed⟩
    · obtain ⟨rfl, unreverted⟩ := confirmation_eq_ok_iff.mp confirmed
      refine .inr ⟨erc20, token, by simp [nothing], (lacks.append _).1, hash, receipt, ?_, ?_,
        unreverted⟩
      · simp
      · simp
    · intro other read
      simpa [TokenRead] using read
  · intro hash reply error failed
    refine ⟨nofun, fun _ => remedied _ _ ?_, fun native => absurd native notNative, ?_⟩
    · intro other read
      simpa [TokenRead] using read
    · exact fun _ _ => ⟨awaited hash reply, by simp, not_succeeds_awaited failed⟩

/-- With a known sender, the answer about the allowance decides what is lacking. -/
theorem obeys_ensureAllowance_of_known
    {sender : Address}
    (erc20 : manager.kind = .erc20)
    (known : manager.sender = some sender) :
    (manager.ensureAllowance amount).run.Obeys
      (manager.Orderly amount claim) (manager.Ensured amount) [] := by
  have notNative := not_native_of_erc20 erc20
  rw [ensureAllowance_of_known erc20 known]
  apply obeys_readOne_bind
  · exact ⟨by simp, nofun⟩
  · intro reply token result
    apply obeys_readOne_bind
    · exact ⟨by simpa using succeeds_called_token result, nofun⟩
    · intro allowanceReply allowance allowanceResult
      have succeeded := succeeds_readings known result allowanceResult
      split
      · rename_i covered
        refine ⟨fun _ => ⟨succeeded, .inl ⟨rfl, .inr ?_⟩⟩, ?_,
          fun native => absurd native notNative, nofun⟩
        · exact ⟨token, allowance, tokenRead_iff.mpr result,
            (allowanceRead_iff known).mpr ⟨rfl, allowanceResult⟩, covered⟩
        · intro _ other lacks
          rcases lacks.2 with unknown | ⟨less, lessRead, below⟩
          · rw [known] at unknown
            contradiction
          · have lessResult := ((allowanceRead_iff known).mp lessRead).2
            rw [allowanceResult] at lessResult
            obtain rfl := Except.ok.inj lessResult
            exact absurd covered (BitVec.not_le.mpr below)
      · rename_i uncovered
        apply obeys_confirm_approval erc20 succeeded rfl
        · exact ⟨tokenRead_iff.mpr result, .inr ⟨allowance,
            (allowanceRead_iff known).mpr ⟨rfl, allowanceResult⟩, BitVec.not_le.mp uncovered⟩⟩
        · intro other otherRead
          have otherResult := tokenRead_iff.mp otherRead
          rw [result] at otherResult
          exact (Except.ok.inj otherResult).symm
    · intro allowanceReply error failed
      refine ⟨nofun, fun _ other lacks => ?_, fun native => absurd native notNative, ?_⟩
      · rcases lacks.2 with unknown | ⟨allowance, allowanceRead, -⟩
        · rw [known] at unknown
          contradiction
        · have allowanceResult := ((allowanceRead_iff known).mp allowanceRead).2
          rw [failed] at allowanceResult
          contradiction
      · exact fun _ _ => ⟨_, List.mem_concat_self, not_succeeds_called_allowance failed⟩
  · intro reply error failed
    refine ⟨nofun, fun _ token lacks => ?_, fun native => absurd native notNative, ?_⟩
    · simpa [TokenRead, failed] using lacks.1
    · exact fun _ _ => ⟨_, List.mem_concat_self, not_succeeds_called_token failed⟩

/-- Without a known sender, the answer about the token suffices to find the approval lacking. -/
theorem obeys_ensureAllowance_of_unknown
    (erc20 : manager.kind = .erc20)
    (unknown : manager.sender = none) :
    (manager.ensureAllowance amount).run.Obeys
      (manager.Orderly amount claim) (manager.Ensured amount) [] := by
  rw [ensureAllowance_of_unknown erc20 unknown]
  apply obeys_readOne_bind
  · exact ⟨by simp, nofun⟩
  · intro reply token result
    apply obeys_confirm_approval erc20
    · simpa using succeeds_called_token result
    · rfl
    · exact ⟨by simp [TokenRead, result], .inl unknown⟩
    · simp [TokenRead, result, eq_comm]
  · intro reply error failed
    refine ⟨nofun, fun _ token lacks => ?_,
      fun native => absurd native (not_native_of_erc20 erc20), ?_⟩
    · simpa [TokenRead, failed] using lacks.1
    · exact fun _ _ => ⟨_, List.mem_concat_self, not_succeeds_called_token failed⟩

/-- Whatever a node answers, the allowance step asks in order and leaves nothing to remedy. -/
theorem obeys_ensureAllowance (manager : StakingManager) (amount : U256) (claim : Transaction) :
    (manager.ensureAllowance amount).run.Obeys
      (manager.Orderly amount claim) (manager.Ensured amount) [] := by
  cases kind : manager.kind with
  | native =>
      rw [ensureAllowance_of_native kind]
      exact ⟨fun _ => ⟨nofun, .inl ⟨rfl, .inl kind⟩⟩,
        fun erc20 => absurd kind (not_native_of_erc20 erc20), fun _ => rfl, nofun⟩
  | erc20 =>
      cases known : manager.sender with
      | none => exact obeys_ensureAllowance_of_unknown kind known
      | some sender => exact obeys_ensureAllowance_of_known kind known

end Allowance

end StakingManager

namespace Stake

open Operation Transacting

variable {α : Type}

/-! ## Accepted stakes -/

/-- How much is staked. -/
def amount : Stake α → U256
  | .validator request => request.stakeAmount
  | .delegation _ amount _ => amount

/-- Does what takes the stake. -/
def perform (manager : StakingManager) : Stake α → Operation α
  | .validator request => manager.initiateValidatorRegistration request
  | .delegation validation amount recipient =>
    manager.initiateDelegatorRegistration validation amount recipient

/-- A stake has passed all checks behind a conversation, in which the terms of the manager were read
if they matter. -/
def Accepted (manager : StakingManager) : Stake α → NodeConversation → Prop
  | .validator request, conversation =>
    ∃ reply settings,
      conversation = [called manager.address
        (StakingManagerContract.getStakingManagerSettings.callData []) reply] ∧
      resultOf StakingManagerContract.getStakingManagerSettings StakingSettings.ofAbi? reply =
        .ok settings ∧
      request.check settings = .ok ()
  | .delegation _ amount recipient, conversation =>
    conversation = [] ∧ amount ≠ 0 ∧ recipient ≠ .zero

/-- A stake has failed its checks behind a conversation: the terms of the manager were asked for if
they matter, and what was answered does not accept the stake. -/
def Refused (manager : StakingManager) : Stake α → NodeConversation → Prop
  | .validator request, conversation =>
    ∃ reply,
      conversation = [called manager.address
        (StakingManagerContract.getStakingManagerSettings.callData []) reply] ∧
      ∀ settings,
        resultOf StakingManagerContract.getStakingManagerSettings StakingSettings.ofAbi? reply =
          .ok settings →
        request.check settings ≠ .ok ()
  | .delegation _ amount recipient, conversation =>
    conversation = [] ∧ (amount = 0 ∨ recipient = .zero)

/-- What is left of a run waits for the terms of the manager, with nothing said before. Only a
registration is judged by terms. -/
def Waits
    (manager : StakingManager) :
    Stake α → NodeConversation → Program NodeDialogue (Except ManagerError α) → Prop
  | .validator _, conversation, rest =>
    conversation = [] ∧ ∃ next, rest =
      .ask (.call manager.address
        (StakingManagerContract.getStakingManagerSettings.callData [])) next
  | .delegation _ _ _, _, _ => False

/-- The arguments of the contract in front of amount and recipient. -/
def argumentsBefore : Stake α → List AbiValue
  | .validator request => StakingManager.registrationArguments request
  | .delegation validation _ _ => [.ofFixed validation.hash]

/-- Who receives the rewards. -/
def recipient : Stake α → Address
  | .validator request => request.rewardRecipient
  | .delegation _ _ recipient => recipient

/-- The function of the contract that takes the stake. -/
def function : Stake α → TokenKind → ContractFunction
  | .validator _, .native => StakingManagerContract.initiateValidatorRegistrationNative
  | .validator _, .erc20 => StakingManagerContract.initiateValidatorRegistrationErc20
  | .delegation _ _ _, .native => StakingManagerContract.initiateDelegatorRegistrationNative
  | .delegation _ _ _, .erc20 => StakingManagerContract.initiateDelegatorRegistrationErc20

/-- The transaction that takes the stake. -/
def claim (manager : StakingManager) (stake : Stake α) : Transaction :=
  match manager.kind with
  | .native =>
    { callOf manager.address (stake.function .native)
        (stake.argumentsBefore ++ [.address stake.recipient]) with value := stake.amount }
  | .erc20 =>
    callOf manager.address (stake.function .erc20)
      (stake.argumentsBefore ++ [.uint stake.amount, .address stake.recipient])

theorem claim_of_native
    {manager : StakingManager}
    (native : manager.kind = .native)
    (stake : Stake α) :
    stake.claim manager =
      { callOf manager.address (stake.function .native)
          (stake.argumentsBefore ++ [.address stake.recipient]) with value := stake.amount } := by
  rw [claim, native]

theorem claim_of_erc20
    {manager : StakingManager}
    (erc20 : manager.kind = .erc20)
    (stake : Stake α) :
    stake.claim manager =
      callOf manager.address (stake.function .erc20)
        (stake.argumentsBefore ++ [.uint stake.amount, .address stake.recipient]) := by
  rw [claim, erc20]

/-- What the receipt has to report. -/
def report (receipt : Receipt) : Stake α → Operation α
  | .validator _ =>
    expectEvent receipt .initiatedStakingValidatorRegistration (·.id? "validation_id")
  | .delegation _ _ _ => expectEvent receipt .initiatedDelegatorRegistration (·.id? "delegation_id")

/-- What is left to do once a stake is accepted. -/
def collect (manager : StakingManager) (stake : Stake α) : Operation α :=
  manager.ensureAllowance stake.amount >>= fun _ =>
    confirm (stake.claim manager) >>= fun receipt => stake.report receipt

/-- A registration reads the terms and is checked by them before stake is collected. -/
theorem run_perform_validator
    (manager : StakingManager)
    (request : ValidatorRegistration) :
    ((validator request).perform manager).run =
      (manager.settings >>= fun settings =>
        ofExcept (request.check settings) >>= fun _ =>
          (validator request).collect manager).run := by
  rcases manager with ⟨address, native | erc20, sender⟩ <;> rfl

/-- A delegation is checked before stake is collected. -/
theorem run_perform_delegation
    (manager : StakingManager)
    (validation : ValidationId)
    (amount : U256)
    (recipient : Address) :
    ((delegation validation amount recipient).perform manager).run =
      (ofExcept (checkRecipient recipient) >>= fun _ =>
        ofExcept (ensure (amount != 0) .zeroDelegation) >>= fun _ =>
        (delegation validation amount recipient).collect manager).run := by
  rcases manager with ⟨address, native | erc20, sender⟩ <;> rfl

/-- Nothing is sent before a stake is accepted. -/
theorem attempted_accepting
    {manager : StakingManager}
    {stake : Stake α}
    {accepting : NodeConversation}
    (accepted : stake.Accepted manager accepting) :
    attempted accepting = [] := by
  cases stake with
  | validator request =>
      obtain ⟨reply, settings, rfl, -⟩ := accepted
      rfl
  | delegation validation amount recipient =>
      obtain ⟨rfl, -⟩ := accepted
      rfl

/-- Behind the conversation that accepts a stake, all that is left is to collect it. -/
theorem reaches_of_accepted_iff
    {manager : StakingManager}
    {stake : Stake α}
    {accepting later : NodeConversation}
    {rest : Program NodeDialogue (Except ManagerError α)}
    (accepted : stake.Accepted manager accepting) :
    (stake.perform manager).run.Reaches (accepting ++ later) rest ↔
      (stake.collect manager).run.Reaches later rest := by
  cases stake with
  | validator request =>
      obtain ⟨reply, settings, rfl, settingsRead, passed⟩ := accepted
      rw [run_perform_validator, StakingManager.settings, run_bind, run_readOne]
      refine Program.reaches_ask_cons_iff.trans ?_
      change (afterOutcome _ (resultOf _ _ reply)).Reaches later rest ↔ _
      rw [settingsRead, afterOutcome, run_bind, run_ofExcept, passed]
      rfl
  | delegation validation amount recipient =>
      obtain ⟨rfl, positive, named⟩ := accepted
      have amountPassed : ensure (amount != 0) .zeroDelegation = .ok () := by
        simpa [ensure_eq_ok_iff] using positive
      rw [run_perform_delegation, run_bind, run_ofExcept, checkRecipient_eq_ok_iff.mpr named]
      change (ofExcept _ >>= _ : Operation _).run.Reaches later rest ↔ _
      rw [run_bind, run_ofExcept, amountPassed]
      rfl

/-- A run waits for the terms of the manager, has refused the stake, or has accepted it. -/
theorem stages
    {manager : StakingManager}
    {stake : Stake α}
    {conversation : NodeConversation}
    {rest : Program NodeDialogue (Except ManagerError α)}
    (reached : (stake.perform manager).run.Reaches conversation rest) :
    stake.Waits manager conversation rest ∨
      (stake.Refused manager conversation ∧ ∃ error, rest = .done (.error error)) ∨
      ∃ accepting later, conversation = accepting ++ later ∧ stake.Accepted manager accepting := by
  cases stake with
  | validator request =>
      rw [run_perform_validator, StakingManager.settings, run_bind, run_readOne] at reached
      rcases Program.reaches_ask_iff.mp reached with ⟨rfl, rfl⟩ | ⟨reply, later, rfl, reachedLater⟩
      · exact .inl ⟨rfl, _, rfl⟩
      · change (afterOutcome _ (resultOf _ _ reply)).Reaches later rest at reachedLater
        cases settingsRead : resultOf StakingManagerContract.getStakingManagerSettings
          StakingSettings.ofAbi? reply with
        | error error =>
            rw [settingsRead, afterOutcome] at reachedLater
            obtain ⟨rfl, rfl⟩ := Program.reaches_done_iff.mp reachedLater
            refine .inr (.inl ⟨⟨reply, rfl, ?_⟩, error, rfl⟩)
            simp [settingsRead]
        | ok settings =>
            cases passed : request.check settings with
            | ok =>
                exact .inr (.inr ⟨_, later, rfl, reply, settings, rfl, settingsRead, passed⟩)
            | error error =>
                rw [settingsRead, afterOutcome, run_bind, run_ofExcept, passed] at reachedLater
                obtain ⟨rfl, rfl⟩ := Program.reaches_done_iff.mp reachedLater
                refine .inr (.inl ⟨⟨reply, rfl, ?_⟩, error, rfl⟩)
                simp [settingsRead, passed]
  | delegation validation amount recipient =>
      by_cases accepted : amount ≠ 0 ∧ recipient ≠ .zero
      · exact .inr (.inr ⟨[], conversation, rfl, rfl, accepted⟩)
      · have refused : amount = 0 ∨ recipient = .zero := by
          simpa only [not_and_or, not_not] using accepted
        rw [run_perform_delegation, run_bind, run_ofExcept] at reached
        cases named : checkRecipient recipient with
        | error error =>
            rw [named] at reached
            obtain ⟨rfl, rfl⟩ := Program.reaches_done_iff.mp reached
            exact .inr (.inl ⟨⟨rfl, refused⟩, error, rfl⟩)
        | ok =>
            have nothing : amount = 0 :=
              refused.resolve_right (checkRecipient_eq_ok_iff.mp named)
            rw [named, nothing] at reached
            obtain ⟨rfl, rfl⟩ := Program.reaches_done_iff.mp reached
            exact .inr (.inl ⟨⟨rfl, refused⟩, _, rfl⟩)

/-- What every conversation shows in the end: a native manager has attempted the transaction alone,
any other one has attempted every approval that was lacking, the transaction was attempted unless
something failed, and an operation that succeeds met no failure. -/
structure Settled
    (manager : StakingManager)
    (stake : Stake α)
    (history : NodeConversation)
    (outcome : Except ManagerError α) : Prop where
  native : manager.kind = .native → attempted history = [stake.claim manager]
  remedied : manager.kind = .erc20 → manager.Remedied stake.amount history
  claimed : (∀ exchange ∈ history, manager.Succeeds exchange) →
    stake.claim manager ∈ attempted history
  succeeded : ∀ value, outcome = .ok value → ∀ exchange ∈ history, manager.Succeeds exchange

/-- A report asks nothing more. -/
theorem obeys_report
    {manager : StakingManager}
    {stake : Stake α}
    {history : NodeConversation}
    {receipt : Receipt}
    (settled : ∀ outcome, stake.Settled manager history outcome) :
    (stake.report receipt).run.Obeys
      (manager.Orderly stake.amount (stake.claim manager)) (stake.Settled manager) history := by
  cases stake with
  | validator request => exact obeys_expectEvent (fun _ => settled _) (settled _)
  | delegation validation amount recipient =>
      exact obeys_expectEvent (fun _ => settled _) (settled _)

/-- The transaction may be sent once the stake is secured, and settles it whatever comes of it. -/
theorem obeys_claim
    {manager : StakingManager}
    {stake : Stake α}
    {history : NodeConversation}
    (secured : manager.Secured stake.amount history)
    (remedied : manager.kind = .erc20 → manager.Remedied stake.amount history) :
    (confirm (stake.claim manager) >>= fun receipt => stake.report receipt).run.Obeys
      (manager.Orderly stake.amount (stake.claim manager)) (stake.Settled manager) history := by
  have settled
      {reply : Except NodeError Hash32}
      {later : NodeConversation}
      {outcome : Except ManagerError α}
      (nothing : attempted later = [])
      (silent : ∀ token, manager.Lacks stake.amount
        (history ++ sent (stake.claim manager) reply :: later) token →
          manager.Lacks stake.amount history token)
      (succeeded : ∀ value, outcome = .ok value →
        ∀ exchange ∈ sent (stake.claim manager) reply :: later, manager.Succeeds exchange) :
      stake.Settled manager (history ++ sent (stake.claim manager) reply :: later) outcome := by
    refine ⟨?_, ?_, fun _ => by simp, ?_⟩
    · intro native
      rcases secured.covered with ⟨unsent, -⟩ | ⟨erc20, -⟩
      · simp [unsent, nothing]
      · rw [native] at erc20
        contradiction
    · intro erc20 token lacks
      rw [attempted_append]
      exact List.mem_append_left _ (remedied erc20 token (silent token lacks))
    · intro value success exchange present
      rcases List.mem_append.mp present with before | added
      · exact secured.succeeded exchange before
      · exact succeeded value success exchange added
  apply obeys_confirm_bind
  · exact ⟨secured.succeeded, fun transaction same =>
      .inr ⟨(NodeQuestion.send.inj same).symm, secured⟩⟩
  · intro cause
    apply settled rfl
    · simp [StakingManager.Lacks, StakingManager.TokenRead, StakingManager.AllowanceRead]
    · nofun
  · intro hash
    refine ⟨?_, nofun⟩
    simpa [or_imp, forall_and] using ⟨secured.succeeded, manager.succeeds_sent _ hash⟩
  · intro hash reply receipt confirmed
    apply obeys_report
    intro outcome
    apply settled rfl
    · simp [StakingManager.Lacks, StakingManager.TokenRead, StakingManager.AllowanceRead]
    · simp [StakingManager.succeeds_sent, StakingManager.succeeds_awaited confirmed]
  · intro hash reply error failed
    apply settled rfl
    · simp [StakingManager.Lacks, StakingManager.TokenRead, StakingManager.AllowanceRead]
    · nofun

/-- From its acceptance on, taking a stake asks in order and is settled in the end. -/
theorem obeys_collect
    (manager : StakingManager)
    (stake : Stake α) :
    (stake.collect manager).run.Obeys
      (manager.Orderly stake.amount (stake.claim manager)) (stake.Settled manager) [] := by
  apply obeys_bind (manager.obeys_ensureAllowance stake.amount (stake.claim manager))
  · intro history _ ensured
    exact obeys_claim (ensured.secured rfl) ensured.remedied
  · intro history error ensured
    refine ⟨?_, ensured.remedied, ?_, nofun⟩
    · intro native
      cases ensured.native native
    · intro succeeded
      obtain ⟨exchange, present, failed⟩ := ensured.failed error rfl
      exact absurd (succeeded exchange present) failed

/-! ## What is attempted -/

/-- The size of the arguments in front of the amount. -/
def sizeBefore : Stake α → Nat
  | .validator _ => 192
  | .delegation _ _ _ => 32

theorem headsSize_argumentsBefore (stake : Stake α) :
    Abi.Part.headsSize (Abi.encodeParts stake.argumentsBefore) = stake.sizeBefore := by
  cases stake with
  | validator request =>
      simp [argumentsBefore, StakingManager.registrationArguments, sizeBefore, Owner.toAbi,
        AbiValue.ofUInt16, AbiValue.ofUInt64, Abi.encodeParts, Abi.encodeValue,
        Abi.Part.headsSize, Abi.Part.headSize]
  | delegation validation amount recipient =>
      simp [argumentsBefore, sizeBefore, AbiValue.ofFixed, Abi.encodeParts, Abi.encodeValue,
        Abi.Part.headsSize, Abi.Part.headSize, Abi.padRight, Bytes.zeros,
        validation.hash.length_bytes]

/-- A transaction without value names the amount among its arguments. -/
theorem claim_carries_amount
    {manager : StakingManager}
    (erc20 : manager.kind = .erc20)
    (stake : Stake α) :
    ((stake.claim manager).data.drop (4 + stake.sizeBefore)).take 32 =
      Abi.word stake.amount.toNat := by
  rw [claim_of_erc20 erc20, ← headsSize_argumentsBefore]
  exact (stake.function .erc20).word_in_callData _ _ _

/-- An approval has two arguments, and the transaction has more. -/
theorem approval_ne_claim
    {manager : StakingManager}
    (erc20 : manager.kind = .erc20)
    (stake : Stake α)
    (token : Address) :
    manager.approval token stake.amount ≠ stake.claim manager := by
  intro same
  rw [claim_of_erc20 erc20] at same
  have lengths := congrArg (·.data.length) same
  simp only [StakingManager.approval, callOf, ContractFunction.callData, List.length_append,
    ContractFunction.length_selector] at lengths
  have size := Abi.headsSize_le_length_encode
    (stake.argumentsBefore ++ [.uint stake.amount, .address stake.recipient])
  rw [← Nat.add_left_cancel lengths, Abi.encodeParts_append, Abi.Part.headsSize_append,
    headsSize_argumentsBefore] at size
  have someBefore : 32 ≤ stake.sizeBefore := by cases stake <;> simp [sizeBefore]
  simp [Abi.encode, Abi.encodeParts, Abi.encodeValue, Abi.Part.layout, Abi.Part.headsSize,
    Abi.Part.headSize, Abi.Part.heads, Abi.Part.tails, Bytes.zeros, FixedBytes.length_bytes]
    at size
  omega

/-- What is asked from the acceptance of a stake on is in order. -/
theorem orderly_of_reaches
    {manager : StakingManager}
    {stake : Stake α}
    {before after : NodeConversation}
    {exchange : Exchange NodeDialogue}
    {rest : Program NodeDialogue (Except ManagerError α)}
    (reached : (stake.collect manager).run.Reaches (before ++ exchange :: after) rest) :
    manager.Orderly stake.amount (stake.claim manager) before exchange.question :=
  (stake.obeys_collect manager).permits_of_reaches reached

/-- What a conversation attempts from the acceptance on. -/
theorem attempted_cases
    {manager : StakingManager}
    {stake : Stake α}
    {later : NodeConversation}
    {rest : Program NodeDialogue (Except ManagerError α)}
    (reached : (stake.collect manager).run.Reaches later rest) :
    attempted later <+: [stake.claim manager] ∨
      (manager.kind = .erc20 ∧ ∃ token,
        attempted later <+: [manager.approval token stake.amount, stake.claim manager]) := by
  by_cases nothing : attempted later = []
  · simp [nothing]
  · obtain ⟨before, transaction, reply, after, rfl, silent⟩ := exists_last_sent nothing
    rcases (orderly_of_reaches reached).2 transaction rfl with
      ⟨erc20, first, token, -, rfl⟩ | ⟨rfl, secured⟩
    · exact .inr ⟨erc20, token, by simp [first, silent]⟩
    · rcases secured.covered with ⟨first, -⟩ | ⟨erc20, token, approved, -⟩
      · exact .inl (by simp [first, silent])
      · exact .inr ⟨erc20, token, by simp [approved, silent]⟩

/-- An approval is attempted only where it is lacking. -/
theorem lacks_of_approval_attempted
    {manager : StakingManager}
    {stake : Stake α}
    {later : NodeConversation}
    {rest : Program NodeDialogue (Except ManagerError α)}
    (erc20 : manager.kind = .erc20)
    (reached : (stake.collect manager).run.Reaches later rest)
    {token : Address}
    (approving : manager.approval token stake.amount ∈ attempted later) :
    manager.Lacks stake.amount later token := by
  obtain ⟨before, reply, after, rfl⟩ := mem_attempted_iff.mp approving
  rcases (orderly_of_reaches reached).2 _ rfl with ⟨-, -, other, lacks, same⟩ | ⟨same, -⟩
  · obtain rfl : token = other := congrArg Transaction.target same
    exact lacks.append _
  · exact absurd same (approval_ne_claim erc20 stake token)

/-- The transaction is attempted only behind a conversation that secures the stake. -/
theorem secured_of_claim_attempted
    {manager : StakingManager}
    {stake : Stake α}
    {before after : NodeConversation}
    {reply : Except NodeError Hash32}
    {rest : Program NodeDialogue (Except ManagerError α)}
    (reached : (stake.collect manager).run.Reaches
      (before ++ sent (stake.claim manager) reply :: after) rest) :
    manager.Secured stake.amount before := by
  rcases (orderly_of_reaches reached).2 _ rfl with ⟨erc20, -, token, -, same⟩ | ⟨-, secured⟩
  · exact absurd same.symm (approval_ne_claim erc20 stake token)
  · exact secured

/-- A failure is the end: nothing is asked behind it, and the operation fails as well. -/
theorem ends_at_failure
    {manager : StakingManager}
    {stake : Stake α}
    {before after : NodeConversation}
    {exchange : Exchange NodeDialogue}
    {rest : Program NodeDialogue (Except ManagerError α)}
    (reached : (stake.collect manager).run.Reaches (before ++ exchange :: after) rest)
    (failed : ¬ manager.Succeeds exchange) :
    after = [] ∧ ∃ error, rest = .done (.error error) := by
  constructor
  · rcases after with _ | ⟨next, after⟩
    · rfl
    · rw [List.append_cons] at reached
      exact absurd ((orderly_of_reaches reached).1 exchange (by simp)) failed
  · have restObeys := (stake.obeys_collect manager).of_reaches reached
    cases rest with
    | ask question next => exact absurd (restObeys.1.1 exchange (by simp)) failed
    | done outcome =>
        cases outcome with
        | error error => exact ⟨error, rfl⟩
        | ok value => exact absurd (restObeys.succeeded value rfl exchange (by simp)) failed

/-- A native manager takes the stake as value: nothing but the one transaction is attempted, and it
is by the end. -/
structure FundedByValue
    (manager : StakingManager)
    (stake : Stake α)
    (later : NodeConversation)
    (rest : Program NodeDialogue (Except ManagerError α)) : Prop where
  target : (stake.claim manager).target = manager.address
  value : (stake.claim manager).value = stake.amount
  attempts : attempted later <+: [stake.claim manager]
  ended : ∀ outcome, rest = .done outcome → attempted later = [stake.claim manager]

/-- A manager with a token of its own takes the stake from an allowance: it is approved at most
once, exactly where that is lacking, and the transaction is attempted only once it is covered. By
the end it has been attempted unless something failed. -/
structure FundedByToken
    (manager : StakingManager)
    (stake : Stake α)
    (later : NodeConversation)
    (rest : Program NodeDialogue (Except ManagerError α)) : Prop where
  worthless : ∀ transaction ∈ attempted later, transaction.value = 0
  carries : ((stake.claim manager).data.drop (4 + stake.sizeBefore)).take 32 =
    Abi.word stake.amount.toNat
  distinct : ∀ token, manager.approval token stake.amount ≠ stake.claim manager
  attempts : attempted later <+: [stake.claim manager] ∨
    ∃ token, attempted later <+: [manager.approval token stake.amount, stake.claim manager]
  lacking : ∀ token, manager.approval token stake.amount ∈ attempted later →
    manager.Lacks stake.amount later token
  remedied : ∀ outcome, rest = .done outcome → ∀ token,
    manager.Lacks stake.amount later token →
      manager.approval token stake.amount ∈ attempted later
  covered : ∀ before reply after, later = before ++ sent (stake.claim manager) reply :: after →
    manager.Covers stake.amount before ∨
      ∃ token, manager.Approved stake.amount before token
  ended : ∀ outcome, rest = .done outcome → (∀ exchange ∈ later, manager.Succeeds exchange) →
    stake.claim manager ∈ attempted later

/-- An accepted stake is taken in the way of its manager, and nothing is asked behind a failure. -/
structure Funded
    (manager : StakingManager)
    (stake : Stake α)
    (later : NodeConversation)
    (rest : Program NodeDialogue (Except ManagerError α)) : Prop where
  byValue : manager.kind = .native → stake.FundedByValue manager later rest
  byToken : manager.kind = .erc20 → stake.FundedByToken manager later rest
  stops : ∀ before exchange after, later = before ++ exchange :: after →
    ¬ manager.Succeeds exchange → after = [] ∧ ∃ error, rest = .done (.error error)

/-- A stake that a native manager collects is funded by the value of its transaction. -/
theorem fundedByValue
    {manager : StakingManager}
    {stake : Stake α}
    {later : NodeConversation}
    {rest : Program NodeDialogue (Except ManagerError α)}
    (native : manager.kind = .native)
    (reached : (stake.collect manager).run.Reaches later rest) :
    stake.FundedByValue manager later rest := by
  refine ⟨?_, ?_, ?_, ?_⟩
  · rw [claim_of_native native, callOf]
  · rw [claim_of_native native]
  · rcases attempted_cases reached with alone | ⟨erc20, -⟩
    · exact alone
    · rw [native] at erc20
      contradiction
  · rintro outcome rfl
    exact ((stake.obeys_collect manager).atEnd_of_reaches reached).native native

/-- A stake that is collected in a token is funded from an allowance. -/
theorem fundedByToken
    {manager : StakingManager}
    {stake : Stake α}
    {later : NodeConversation}
    {rest : Program NodeDialogue (Except ManagerError α)}
    (erc20 : manager.kind = .erc20)
    (reached : (stake.collect manager).run.Reaches later rest) :
    stake.FundedByToken manager later rest := by
  have attempts : attempted later <+: [stake.claim manager] ∨
      ∃ token, attempted later <+: [manager.approval token stake.amount, stake.claim manager] :=
    (attempted_cases reached).imp_right And.right
  refine ⟨?_, claim_carries_amount erc20 stake, approval_ne_claim erc20 stake, attempts,
    fun _ => lacks_of_approval_attempted erc20 reached, ?_, ?_, ?_⟩
  · have claimWorthless : (stake.claim manager).value = 0 := by
      rw [claim_of_erc20 erc20, callOf]
    intro transaction attempt
    rcases attempts with alone | ⟨token, both⟩
    · rw [List.mem_singleton.mp (alone.mem attempt), claimWorthless]
    · rcases List.mem_pair.mp (both.mem attempt) with rfl | rfl
      · rfl
      · exact claimWorthless
  · rintro outcome rfl
    exact ((stake.obeys_collect manager).atEnd_of_reaches reached).remedied erc20
  · rintro before reply after rfl
    rcases (secured_of_claim_attempted reached).covered with
      ⟨-, native | covers⟩ | ⟨-, token, -, approved⟩
    · rw [erc20] at native
      contradiction
    · exact .inl covers
    · exact .inr ⟨token, approved⟩
  · rintro outcome rfl
    exact ((stake.obeys_collect manager).atEnd_of_reaches reached).claimed

/-- Whatever a node answers, a run first decides on the stake. It waits for the terms by which a
registration is judged, or ends with an error because the stake is refused, or has accepted the
stake, with nothing sent so far. An accepted stake is funded exactly once and only when it is
covered, and nothing is asked behind a failure. -/
theorem funded_once
    (manager : StakingManager)
    (stake : Stake α)
    {conversation : NodeConversation}
    {rest : Program NodeDialogue (Except ManagerError α)}
    (reached : (stake.perform manager).run.Reaches conversation rest) :
    stake.Waits manager conversation rest ∨
      (stake.Refused manager conversation ∧ ∃ error, rest = .done (.error error)) ∨
      ∃ accepting later, conversation = accepting ++ later ∧ stake.Accepted manager accepting ∧
        attempted accepting = [] ∧ stake.Funded manager later rest := by
  rcases stages reached with waits | refused | ⟨accepting, later, rfl, accepted⟩
  · exact .inl waits
  · exact .inr (.inl refused)
  · rw [reaches_of_accepted_iff accepted] at reached
    refine .inr (.inr ⟨accepting, later, rfl, accepted, attempted_accepting accepted,
      (fundedByValue · reached), (fundedByToken · reached), ?_⟩)
    rintro before exchange after rfl failed
    exact ends_at_failure reached failed

/-- Behind the conversation that accepts a stake, a run that has decided on the stake funds it. -/
theorem funded_of_accepted
    {manager : StakingManager}
    {stake : Stake α}
    {accepting later : NodeConversation}
    {rest : Program NodeDialogue (Except ManagerError α)}
    (accepted : stake.Accepted manager accepting)
    (decided : stake.Waits manager (accepting ++ later) rest ∨
      (stake.Refused manager (accepting ++ later) ∧ ∃ error, rest = .done (.error error)) ∨
      ∃ before after, accepting ++ later = before ++ after ∧ stake.Accepted manager before ∧
        attempted before = [] ∧ stake.Funded manager after rest) :
    stake.Funded manager later rest := by
  cases stake with
  | validator request =>
      obtain ⟨reply, settings, rfl, settingsRead, passed⟩ := accepted
      rcases decided with ⟨same, -⟩ | ⟨⟨answer, same, rejected⟩, -⟩ |
        ⟨_, after, same, ⟨answer, terms, rfl, -⟩, -, funded⟩
      · cases same
      · cases same
        exact absurd passed (rejected settings settingsRead)
      · cases same
        exact funded
  | delegation validation amount recipient =>
      obtain ⟨rfl, positive, named⟩ := accepted
      rcases decided with waits | ⟨⟨-, nothing | unnamed⟩, -⟩ | ⟨_, _, rfl, ⟨rfl, -⟩, -, funded⟩
      · exact waits.elim
      · exact absurd nothing positive
      · exact absurd unnamed named
      · exact funded

/-- A manager that takes stake as value. -/
def sampleNative : StakingManager :=
  ⟨.ofNat 1, .native, some (.ofNat 2)⟩

/-- A manager that takes stake in a token, used by an account that is known. -/
def sampleManager : StakingManager :=
  ⟨.ofNat 1, .erc20, some (.ofNat 2)⟩

/-- A registration with a stake of 10000. -/
def sampleRegistration : Stake ValidationId :=
  .validator ValidatorRegistration.sampleRequest

/-- A delegation of an amount of 3. -/
def sampleDelegation : Stake DelegationId :=
  .delegation ⟨.zero⟩ 3 (.ofNat 7)

/-- The manager gives its terms. -/
def sampleTerms : Exchange NodeDialogue :=
  called (.ofNat 1) (StakingManagerContract.getStakingManagerSettings.callData [])
    (.ok (Abi.encode [ValidatorRegistration.sampleSettings.toAbi]))

/-- The token allows an amount. -/
def sampleAllowance (amount : Nat) : NodeConversation := [
  called (.ofNat 1) (StakingManagerContract.erc20.callData []) (.ok (Abi.word 5)),
  called (.ofNat 5)
    (TokenContract.allowance.callData [.address (.ofNat 2), .address (.ofNat 1)])
    (.ok (Abi.word amount))]

/-- The registration is sent with its stake as value, and dropped. -/
def sampleByValue : NodeConversation :=
  [sent (sampleRegistration.claim sampleNative) (.ok .zero), awaited .zero (.ok none)]

/-- The token allows just the stake of the registration, so that nothing has to be approved; then
the node refuses. -/
def sampleCovered : NodeConversation :=
  sampleAllowance 10000 ++
    [sent (sampleRegistration.claim sampleManager) (.error (.transport "refused"))]

/-- The token allows an amount of 2 only, so that the approval goes first; then the node refuses. -/
def sampleApproved : NodeConversation :=
  sampleAllowance 2 ++ [
    sent (sampleManager.approval (.ofNat 5) 3) (.ok .zero),
    awaited .zero (.ok (some ⟨.zero, some 1, []⟩)),
    sent (sampleDelegation.claim sampleManager) (.error (.transport "refused"))]

/-- The sample registration passes the checks by the sample terms. -/
theorem sampleRegistration_accepted (kind : TokenKind) (sender : Option Address) :
    sampleRegistration.Accepted ⟨.ofNat 1, kind, sender⟩ [sampleTerms] := by
  refine ⟨_, ValidatorRegistration.sampleSettings, rfl, ?_, rfl⟩
  have decoded : Abi.decode StakingManagerContract.getStakingManagerSettings.outputs
      (Abi.encode [ValidatorRegistration.sampleSettings.toAbi]) =
        .ok [ValidatorRegistration.sampleSettings.toAbi] :=
    Abi.decode_encode_singleton ValidatorRegistration.sampleSettings.admits_toAbi nofun
  simp only [resultOf, decoded, List.head?_cons, Option.bind_some,
    StakingSettings.ofAbi?_toAbi]

/-- A registration is funded by a native manager and by one with a token, whose allowance covers it,
and a delegation by an approval that the allowance lacks. -/
theorem samples_funded :
    (∃ rest, (sampleRegistration.perform sampleNative).run.Reaches
        (sampleTerms :: sampleByValue) rest ∧
      sampleRegistration.FundedByValue sampleNative sampleByValue rest) ∧
    (∃ rest, (sampleRegistration.perform sampleManager).run.Reaches
        (sampleTerms :: sampleCovered) rest ∧
      sampleRegistration.FundedByToken sampleManager sampleCovered rest) ∧
    ∃ rest, (sampleDelegation.perform sampleManager).run.Reaches sampleApproved rest ∧
      sampleDelegation.FundedByToken sampleManager sampleApproved rest := by
  refine ⟨⟨.done (.error (.dropped .zero)), ?_⟩,
    ⟨.done (.error (.ofCall (.ofNodeError (.transport "refused")))), ?_⟩,
    ⟨.done (.error (.ofCall (.ofNodeError (.transport "refused")))), ?_⟩⟩
  · have accepted := sampleRegistration_accepted .native (some (.ofNat 2))
    have reached := (reaches_of_accepted_iff accepted).mpr
      (show (sampleRegistration.collect sampleNative).run.Reaches sampleByValue _ from
        .turn _ (.turn _ (.start _)))
    have funded := funded_of_accepted accepted (funded_once sampleNative _ reached)
    exact ⟨reached, funded.byValue rfl⟩
  · have accepted := sampleRegistration_accepted .erc20 (some (.ofNat 2))
    have reached := (reaches_of_accepted_iff accepted).mpr
      (show (sampleRegistration.collect sampleManager).run.Reaches sampleCovered _ from
        .turn _ (.turn _ (.turn _ (.start _))))
    have funded := funded_of_accepted accepted (funded_once sampleManager _ reached)
    exact ⟨reached, funded.byToken rfl⟩
  · have accepted : sampleDelegation.Accepted sampleManager [] := ⟨rfl, by decide, by decide⟩
    have reached := (reaches_of_accepted_iff accepted).mpr
      (show (sampleDelegation.collect sampleManager).run.Reaches sampleApproved _ from
        .turn _ (.turn _ (.turn _ (.turn _ (.turn _ (.start _))))))
    have funded := funded_of_accepted accepted (funded_once sampleManager _ reached)
    exact ⟨reached, funded.byToken rfl⟩

end Stake
end Valset
