import Valset.Manager.Operation
import Valset.Proofs.Rules

/-!
# Steps of operations

What the steps of an operation ask a node and what they make of its answers: a call of a contract is
one question, a transaction one question and, once it is accepted, another one for its receipt. From
this follows for each step what an operation has to show in order to obey a rule.
-/

namespace Valset

/-- What was said between an operation and a node. -/
abbrev NodeConversation : Type :=
  List (Exchange NodeDialogue)

namespace Operation

variable {α β : Type}

/-! ## What was said -/

/-- A call of a contract and what the node answered. -/
def called
    (contract : Address)
    (data : Bytes)
    (reply : Except NodeError Bytes) : Exchange NodeDialogue :=
  ⟨.call contract data, reply⟩

/-- The attempt to send a transaction. -/
def sent
    (transaction : Transaction)
    (reply : Except NodeError Hash32) : Exchange NodeDialogue :=
  ⟨.send transaction, reply⟩

/-- The question for the receipt of a transaction. -/
def awaited
    (hash : Hash32)
    (reply : Except NodeError (Option Receipt)) : Exchange NodeDialogue :=
  ⟨.receipt hash, reply⟩

/-- Calls are told apart by contract, data and reply. -/
theorem called_inj
    {first second : Address}
    {firstData secondData : Bytes}
    {firstReply secondReply : Except NodeError Bytes} :
    called first firstData firstReply = called second secondData secondReply ↔
      first = second ∧ firstData = secondData ∧ firstReply = secondReply := by
  constructor
  · intro same
    obtain ⟨questions, replies⟩ := Exchange.mk.inj same
    obtain ⟨rfl, rfl⟩ := NodeQuestion.call.inj questions
    exact ⟨rfl, rfl, eq_of_heq replies⟩
  · rintro ⟨rfl, rfl, rfl⟩
    rfl

theorem called_ne_sent
    {contract : Address}
    {data : Bytes}
    {reply : Except NodeError Bytes}
    {transaction : Transaction}
    {sentReply : Except NodeError Hash32} :
    called contract data reply ≠ sent transaction sentReply :=
  nofun

theorem called_ne_awaited
    {contract : Address}
    {data : Bytes}
    {reply : Except NodeError Bytes}
    {hash : Hash32}
    {receiptReply : Except NodeError (Option Receipt)} :
    called contract data reply ≠ awaited hash receiptReply :=
  nofun

/-- The transaction that an exchange attempts, whatever the answer. -/
def attempt? : Exchange NodeDialogue → Option Transaction
  | ⟨.send transaction, _⟩ => some transaction
  | _ => none

/-- The transactions that a conversation attempts. -/
def attempted (conversation : NodeConversation) : List Transaction :=
  conversation.filterMap attempt?

@[simp] theorem attempted_nil : attempted [] = [] := rfl

/-- Transactions of a conversation are attempted in order. -/
@[simp] theorem attempted_append (first second : NodeConversation) :
    attempted (first ++ second) = attempted first ++ attempted second := by
  simp [attempted]

@[simp] theorem attempted_cons_called
    (contract : Address)
    (data : Bytes)
    (reply : Except NodeError Bytes)
    (later : NodeConversation) :
    attempted (called contract data reply :: later) = attempted later := rfl

@[simp] theorem attempted_cons_sent
    (transaction : Transaction)
    (reply : Except NodeError Hash32)
    (later : NodeConversation) :
    attempted (sent transaction reply :: later) = transaction :: attempted later := rfl

@[simp] theorem attempted_cons_awaited
    (hash : Hash32)
    (reply : Except NodeError (Option Receipt))
    (later : NodeConversation) :
    attempted (awaited hash reply :: later) = attempted later := rfl

/-- A transaction was attempted exactly when a conversation can be cut at an exchange that sends
it. -/
theorem mem_attempted_iff
    {conversation : NodeConversation}
    {transaction : Transaction} :
    transaction ∈ attempted conversation ↔
      ∃ before reply after, conversation = before ++ sent transaction reply :: after := by
  rw [attempted, List.mem_filterMap]
  constructor
  · rintro ⟨⟨question, reply⟩, present, sends⟩
    obtain ⟨before, after, rfl⟩ := List.append_of_mem present
    cases question <;> cases sends
    exact ⟨before, reply, after, rfl⟩
  · rintro ⟨before, reply, after, rfl⟩
    exact ⟨sent transaction reply, by simp, rfl⟩

/-- A conversation that attempts transactions can be cut at the last of them. -/
theorem exists_last_sent
    {conversation : NodeConversation}
    (attempts : attempted conversation ≠ []) :
    ∃ before transaction reply after,
      conversation = before ++ sent transaction reply :: after ∧ attempted after = [] := by
  induction conversation with
  | nil => exact absurd attempted_nil attempts
  | cons exchange later inductionHypothesis =>
      by_cases laterAttempted : attempted later = []
      · obtain ⟨question, reply⟩ := exchange
        cases question with
        | send transaction => exact ⟨[], transaction, reply, later, rfl, laterAttempted⟩
        | _ => exact absurd laterAttempted attempts
      · obtain ⟨before, transaction, reply, after, rfl, silent⟩ :=
          inductionHypothesis laterAttempted
        exact ⟨exchange :: before, transaction, reply, after, rfl, silent⟩

/-- What an operation makes of the answer to a call with a single result. -/
def resultOf
    (function : ContractFunction)
    (extract : AbiValue → Option α) : Except NodeError Bytes → Except ManagerError α
  | .error cause => .error (.ofCall (.ofNodeError cause))
  | .ok data =>
    match Abi.decode function.outputs data with
    | .error cause => .error (.undecodableResult cause)
    | .ok results =>
      match results.head?.bind extract with
      | some value => .ok value
      | none => .error (.undecodableResult .invalidData)

theorem resultOf_ok
    (function : ContractFunction)
    (extract : AbiValue → Option α)
    (data : Bytes) :
    resultOf function extract (.ok data) =
      match Abi.decode function.outputs data with
      | .error cause => .error (.undecodableResult cause)
      | .ok results =>
        match results.head?.bind extract with
        | some value => .ok value
        | none => .error (.undecodableResult .invalidData) := rfl

/-- A call was answered with a value. -/
def Answered
    (history : NodeConversation)
    (contract : Address)
    (function : ContractFunction)
    (arguments : List AbiValue)
    (extract : AbiValue → Option α)
    (value : α) : Prop :=
  ∃ reply, called contract (function.callData arguments) reply ∈ history ∧
    resultOf function extract reply = .ok value

section Answered

variable
  {contract : Address}
  {function : ContractFunction}
  {arguments : List AbiValue}
  {extract : AbiValue → Option α}
  {value : α}

@[simp] theorem not_answered_nil : ¬ Answered [] contract function arguments extract value := by
  rintro ⟨reply, present, -⟩
  exact List.not_mem_nil present

/-- A call is answered in one of two parts of a conversation. -/
@[simp] theorem answered_append {first second : NodeConversation} :
    Answered (first ++ second) contract function arguments extract value ↔
      Answered first contract function arguments extract value ∨
        Answered second contract function arguments extract value := by
  simp only [Answered, List.mem_append, or_and_right, exists_or]

@[simp] theorem answered_cons_called
    {other : Address}
    {data : Bytes}
    {reply : Except NodeError Bytes}
    {later : NodeConversation} :
    Answered (called other data reply :: later) contract function arguments extract value ↔
      (contract = other ∧ function.callData arguments = data ∧
          resultOf function extract reply = .ok value) ∨
        Answered later contract function arguments extract value := by
  simp [Answered, called_inj, or_and_right, exists_or, and_assoc]

@[simp] theorem answered_cons_sent
    {transaction : Transaction}
    {reply : Except NodeError Hash32}
    {later : NodeConversation} :
    Answered (sent transaction reply :: later) contract function arguments extract value ↔
      Answered later contract function arguments extract value := by
  simp [Answered, called_ne_sent]

@[simp] theorem answered_cons_awaited
    {hash : Hash32}
    {reply : Except NodeError (Option Receipt)}
    {later : NodeConversation} :
    Answered (awaited hash reply :: later) contract function arguments extract value ↔
      Answered later contract function arguments extract value := by
  simp [Answered, called_ne_awaited]

end Answered

/-- What an operation makes of the answer to the question for a receipt. -/
def confirmation (hash : Hash32) :
    Except NodeError (Option Receipt) → Except ManagerError Receipt
  | .error cause => .error (.provider cause)
  | .ok none => .error (.dropped hash)
  | .ok (some receipt) => if receipt.reverted then .error (.reverted hash) else .ok receipt

/-- A receipt confirms a transaction unless it was reverted. -/
theorem confirmation_some
    (hash : Hash32)
    (receipt : Receipt) :
    confirmation hash (.ok (some receipt)) =
      if receipt.reverted then .error (.reverted hash) else .ok receipt := rfl

/-- A transaction is confirmed by a receipt that does not report a failure. -/
theorem confirmation_eq_ok_iff
    {hash : Hash32}
    {reply : Except NodeError (Option Receipt)}
    {receipt : Receipt} :
    confirmation hash reply = .ok receipt ↔
      reply = .ok (some receipt) ∧ receipt.reverted = false := by
  rcases reply with cause | _ | other
  · simp [confirmation]
  · simp [confirmation]
  · rw [confirmation_some]
    split
    · rename_i reverted
      simp only [reduceCtorEq, Except.ok.injEq, Option.some.injEq, false_iff, not_and]
      rintro rfl
      simp [reverted]
    · rename_i confirmed
      simp only [Except.ok.injEq, Option.some.injEq, iff_self_and]
      rintro rfl
      simpa using confirmed

/-! ## Steps as programs -/

/-- What an operation does after a step: it goes on with the value or keeps the error. -/
def afterOutcome (next : α → Operation β) :
    Except ManagerError α → Program NodeDialogue (Except ManagerError β)
  | .ok value => (next value).run
  | .error error => .done (.error error)

/-- An operation goes on with its outcome. -/
theorem run_bind
    (step : Operation α)
    (next : α → Operation β) :
    (step >>= next).run = step.run.andThen (afterOutcome next) := by
  change Program.andThen _ _ = _
  congr 1
  funext outcome
  cases outcome <;> rfl

/-- Three steps in a row may be put together from either end. -/
theorem run_bind_assoc
    {γ : Type}
    (step : Operation α)
    (next : α → Operation β)
    (last : β → Operation γ) :
    ((step >>= next) >>= last).run = (step >>= fun value => next value >>= last).run := by
  rw [run_bind, run_bind, run_bind, Program.andThen_assoc]
  congr 1
  funext outcome
  cases outcome with
  | ok value => exact (run_bind (next value) last).symm
  | error error => rfl

theorem run_ofExcept (outcome : Except ManagerError α) :
    (ofExcept outcome : Operation α).run = .done outcome := by
  cases outcome <;> rfl

theorem run_ask_bind
    (question : NodeQuestion)
    (next : Except NodeError question.Reply → Operation β) :
    (ask question >>= next).run = .ask question fun reply => (next reply).run := rfl

/-- A read makes one call and decodes its result. -/
theorem run_read
    (contract : Address)
    (function : ContractFunction)
    (arguments : List AbiValue) :
    (read contract function arguments).run =
      .ask (.call contract (function.callData arguments)) fun
        | .error cause => .done (.error (.ofCall (.ofNodeError cause)))
        | .ok data => .done ((Abi.decode function.outputs data).mapError .undecodableResult) := by
  rw [Operation.read, run_ask_bind]
  congr 1
  funext reply
  rcases reply with cause | data
  · rfl
  · exact run_ofExcept _

/-- A read of one value takes it from the decoded result. -/
theorem run_readOne
    (contract : Address)
    (function : ContractFunction)
    (arguments : List AbiValue)
    (extract : AbiValue → Option α) :
    (readOne contract function arguments extract).run =
      .ask (.call contract (function.callData arguments)) fun reply =>
        .done (resultOf function extract reply) := by
  rw [readOne, run_bind, run_read]
  change Program.ask _ _ = Program.ask _ _
  congr 1
  funext reply
  rcases reply with cause | (data : Bytes)
  · rfl
  · change afterOutcome _ ((Abi.decode function.outputs data).mapError _) =
      .done (resultOf function extract (.ok data))
    rw [resultOf_ok]
    cases Abi.decode function.outputs data with
    | error cause => rfl
    | ok results => exact run_ofExcept _

/-- A transaction is sent, and its receipt is waited for. -/
theorem run_confirm (transaction : Transaction) :
    (confirm transaction).run =
      .ask (.send transaction) fun
        | .error cause => .done (.error (.ofCall (.ofNodeError cause)))
        | .ok hash => .ask (.receipt hash) fun reply => .done (confirmation hash reply) := by
  rw [confirm, run_ask_bind]
  congr 1
  funext reply
  rcases reply with cause | (hash : Hash32)
  · rfl
  · change (ask (.receipt hash) >>= _).run = _
    rw [run_ask_bind]
    congr 1
    funext reply
    rcases reply with cause | _ | (receipt : Receipt)
    · rfl
    · rfl
    · change (if receipt.reverted then _ else _ : Operation Receipt).run =
        .done (confirmation hash (.ok (some receipt)))
      rw [confirmation_some]
      cases receipt.reverted <;> rfl

/-- The first event of a kind is looked for in the receipt. -/
theorem run_expectEvent
    (receipt : Receipt)
    (kind : EventKind)
    (extract : Event → Option α) :
    (expectEvent receipt kind extract).run =
      .done (match (receipt.event? kind).bind extract with
        | some value => .ok value
        | none => .error (.missingEvent receipt.transactionHash kind)) :=
  run_ofExcept _

/-! ## Steps that obey rules -/

section Rules

variable
  {permits : NodeConversation → NodeQuestion → Prop}
  {atEnd : NodeConversation → Except ManagerError α → Prop}
  {atLast : NodeConversation → Except ManagerError β → Prop}
  {history : NodeConversation}

/-- A step may be followed by what obeys the rules behind each of its values. -/
theorem obeys_bind
    {step : Operation α}
    {next : α → Operation β}
    (obeys : step.run.Obeys permits atEnd history)
    (succeeded : ∀ later value, atEnd later (.ok value) →
      (next value).run.Obeys permits atLast later)
    (failed : ∀ later error, atEnd later (.error error) → atLast later (.error error)) :
    (step >>= next).run.Obeys permits atLast history := by
  rw [run_bind]
  apply obeys.andThen
  intro later outcome ended
  cases outcome with
  | ok value => exact succeeded later value ended
  | error error => exact failed later error ended

/-- A check that asks nothing obeys what its two outcomes obey. -/
theorem obeys_ofExcept_bind
    {check : Except ManagerError α}
    {next : α → Operation β}
    (passed : ∀ value, check = .ok value → (next value).run.Obeys permits atLast history)
    (failed : ∀ error, check = .error error → atLast history (.error error)) :
    (ofExcept check >>= next).run.Obeys permits atLast history := by
  rw [run_bind, run_ofExcept]
  cases check with
  | ok value => exact passed value rfl
  | error error => exact failed error rfl

/-- A read obeys what is permitted, whether it succeeds or fails. -/
theorem obeys_readOne_bind
    {contract : Address}
    {function : ContractFunction}
    {arguments : List AbiValue}
    {extract : AbiValue → Option α}
    {next : α → Operation β}
    (permitted : permits history (.call contract (function.callData arguments)))
    (succeeded : ∀ reply value, resultOf function extract reply = .ok value →
      (next value).run.Obeys permits atLast
        (history ++ [called contract (function.callData arguments) reply]))
    (failed : ∀ reply error, resultOf function extract reply = .error error →
      atLast (history ++ [called contract (function.callData arguments) reply])
        (.error error)) :
    (readOne contract function arguments extract >>= next).run.Obeys permits atLast history := by
  rw [run_bind, run_readOne]
  refine ⟨permitted, ?_⟩
  intro reply
  change (afterOutcome next (resultOf function extract reply)).Obeys permits atLast _
  cases result : resultOf function extract reply with
  | ok value => exact succeeded reply value result
  | error error => exact failed reply error result

/-- A transaction obeys what is permitted, whether it is refused, dropped, reverted or confirmed. -/
theorem obeys_confirm_bind
    {transaction : Transaction}
    {next : Receipt → Operation β}
    (permitted : permits history (.send transaction))
    (refused : ∀ cause, atLast (history ++ [sent transaction (.error cause)])
      (.error (.ofCall (.ofNodeError cause))))
    (asked : ∀ hash, permits (history ++ [sent transaction (.ok hash)]) (.receipt hash))
    (confirmed : ∀ hash reply receipt, confirmation hash reply = .ok receipt →
      (next receipt).run.Obeys permits atLast
        (history ++ [sent transaction (.ok hash), awaited hash reply]))
    (failed : ∀ hash reply error, confirmation hash reply = .error error →
      atLast (history ++ [sent transaction (.ok hash), awaited hash reply])
        (.error error)) :
    (confirm transaction >>= next).run.Obeys permits atLast history := by
  rw [run_bind, run_confirm]
  refine ⟨permitted, ?_⟩
  rintro (cause | (hash : Hash32))
  · exact refused cause
  · refine ⟨asked hash, ?_⟩
    intro reply
    rw [List.append_assoc]
    change (afterOutcome next (confirmation hash reply)).Obeys permits atLast _
    cases outcome : confirmation hash reply with
    | ok receipt => exact confirmed hash reply receipt outcome
    | error error => exact failed hash reply error outcome

/-- An event that is expected obeys what its two outcomes obey. -/
theorem obeys_expectEvent
    {receipt : Receipt}
    {kind : EventKind}
    {extract : Event → Option α}
    (found : ∀ value, atEnd history (.ok value))
    (missing : atEnd history (.error (.missingEvent receipt.transactionHash kind))) :
    (expectEvent receipt kind extract).run.Obeys permits atEnd history := by
  rw [run_expectEvent]
  cases (receipt.event? kind).bind extract with
  | some value => exact found value
  | none => exact missing

end Rules

end Operation
end Valset
