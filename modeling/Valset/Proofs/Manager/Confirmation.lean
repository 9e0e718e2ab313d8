import Valset.Proofs.Manager.Allowance

/-!
# Operations that end with a confirmation

An operation that sends transactions goes on behind one of them only once it is confirmed. A
conversation that has come to its end is therefore settled up to its last step, and that step
decides about the outcome: it failed, or it was the receipt of which the operation tells.
-/

namespace Valset
namespace Operation

variable {α β : Type}

/-- Every transaction of a conversation was accepted, and was confirmed by the receipt that was
asked for next. -/
inductive Settled : NodeConversation → Prop
  | nil : Settled []
  | called
      (contract : Address)
      (data : Bytes)
      (reply : Except NodeError Bytes)
      {later : NodeConversation}
      (settled : Settled later) : Settled (called contract data reply :: later)
  | confirmed
      (transaction : Transaction)
      (hash : Hash32)
      {receipt : Receipt}
      (unreverted : receipt.reverted = false)
      {later : NodeConversation}
      (settled : Settled later) :
      Settled (sent transaction (.ok hash) :: awaited hash (.ok (some receipt)) :: later)

theorem Settled.append
    {first second : NodeConversation}
    (firstSettled : Settled first)
    (secondSettled : Settled second) :
    Settled (first ++ second) := by
  induction firstSettled with
  | nil => exact secondSettled
  | called contract data reply _ inductionHypothesis =>
      exact .called contract data reply inductionHypothesis
  | confirmed transaction hash unreverted _ inductionHypothesis =>
      exact .confirmed transaction hash unreverted inductionHypothesis

/-- The last step of a conversation and the outcome to which it leads. Only a receipt that does not
report a failure is told of. -/
inductive Final (tells : Receipt → Except ManagerError α → Prop) :
    NodeConversation → Except ManagerError α → Prop
  | called
      (contract : Address)
      (data : Bytes)
      (reply : Except NodeError Bytes)
      (error : ManagerError) : Final tells [called contract data reply] (.error error)
  | refused
      (transaction : Transaction)
      (cause : NodeError) :
      Final tells [sent transaction (.error cause)] (.error (.ofCall (.ofNodeError cause)))
  | unconfirmed
      (transaction : Transaction)
      {hash : Hash32}
      {reply : Except NodeError (Option Receipt)}
      {error : ManagerError}
      (failed : confirmation hash reply = .error error) :
      Final tells [sent transaction (.ok hash), awaited hash reply] (.error error)
  | confirmed
      (transaction : Transaction)
      (hash : Hash32)
      {receipt : Receipt}
      {outcome : Except ManagerError α}
      (unreverted : receipt.reverted = false)
      (told : tells receipt outcome) :
      Final tells [sent transaction (.ok hash), awaited hash (.ok (some receipt))] outcome

/-- The conversation and the outcome of an operation that has come to its end: it failed before
anything was asked, or everything in front of the last step was settled. -/
inductive Concluded (tells : Receipt → Except ManagerError α → Prop) :
    NodeConversation → Except ManagerError α → Prop
  | unasked (error : ManagerError) : Concluded tells [] (.error error)
  | asked
      {settled last : NodeConversation}
      {outcome : Except ManagerError α}
      (before : Settled settled)
      (final : Final tells last outcome) : Concluded tells (settled ++ last) outcome

/-! ## Steps -/

section Steps

variable
  {tells : Receipt → Except ManagerError α → Prop}
  {history : NodeConversation}

/-- Nothing is forbidden to an operation of which only the end counts. -/
def Free : NodeConversation → NodeQuestion → Prop :=
  fun _ _ => True

theorem concluded_confirm_bind
    {transaction : Transaction}
    {next : Receipt → Operation α}
    (settled : Settled history)
    (told : ∀ receipt, ∃ outcome, (next receipt).run = .done outcome ∧ tells receipt outcome) :
    (confirm transaction >>= next).run.Obeys Free (Concluded tells) history := by
  apply obeys_confirm_bind trivial
  · intro cause
    exact .asked settled (.refused transaction cause)
  · exact fun _ => trivial
  · intro hash reply receipt confirmed
    obtain ⟨rfl, unreverted⟩ := confirmation_eq_ok_iff.mp confirmed
    obtain ⟨outcome, done, tells⟩ := told receipt
    rw [done]
    exact .asked settled (.confirmed transaction hash unreverted tells)
  · intro hash reply error failed
    exact .asked settled (.unconfirmed transaction failed)

theorem concluded_ofExcept_bind
    {check : Except ManagerError β}
    {next : β → Operation α}
    (concludes : ∀ value, check = .ok value →
      (next value).run.Obeys Free (Concluded tells) []) :
    (ofExcept check >>= next).run.Obeys Free (Concluded tells) [] :=
  obeys_ofExcept_bind concludes fun error _ => .unasked error

theorem concluded_confirmWithMessages_bind
    {transaction : Transaction}
    {messages : List Bytes}
    {index : UInt32}
    {next : Receipt → Operation α}
    (told : ∀ receipt, ∃ outcome, (next receipt).run = .done outcome ∧ tells receipt outcome) :
    (confirmWithMessages transaction messages index >>= next).run.Obeys Free
      (Concluded tells) [] := by
  rw [confirmWithMessages, run_bind_assoc]
  exact concluded_ofExcept_bind fun _ _ => concluded_confirm_bind .nil told

/-- A confirmed transaction is followed by what comes of its receipt. -/
theorem reaches_confirm_bind
    {transaction : Transaction}
    {hash : Hash32}
    {receipt : Receipt}
    {next : Receipt → Operation α}
    {later : NodeConversation}
    {rest : Program NodeDialogue (Except ManagerError α)}
    (unreverted : receipt.reverted = false)
    (reached : (next receipt).run.Reaches later rest) :
    (confirm transaction >>= next).run.Reaches
      (sent transaction (.ok hash) :: awaited hash (.ok (some receipt)) :: later) rest := by
  rw [run_bind, run_confirm]
  refine .turn _ (.turn _ ?_)
  change (afterOutcome next (confirmation hash (.ok (some receipt)))).Reaches later rest
  rwa [confirmation_eq_ok_iff.mpr ⟨rfl, unreverted⟩]

/-- What an allowance leaves behind: everything is settled, or the operation has come to its
end. -/
def Prepared
    (tells : Receipt → Except ManagerError α → Prop)
    (history : NodeConversation) : Except ManagerError Unit → Prop
  | .ok _ => Settled history
  | .error error => Concluded tells history (.error error)

theorem prepared_confirm_bind
    {transaction : Transaction}
    (settled : Settled history) :
    (confirm transaction >>= fun _ => pure ()).run.Obeys Free (Prepared tells) history := by
  apply obeys_confirm_bind trivial
  · intro cause
    exact .asked settled (.refused transaction cause)
  · exact fun _ => trivial
  · intro hash reply receipt confirmed
    obtain ⟨rfl, unreverted⟩ := confirmation_eq_ok_iff.mp confirmed
    exact settled.append (.confirmed transaction hash unreverted .nil)
  · intro hash reply error failed
    exact .asked settled (.unconfirmed transaction failed)

theorem prepared_readOne_bind
    {contract : Address}
    {function : ContractFunction}
    {arguments : List AbiValue}
    {extract : AbiValue → Option β}
    {next : β → Operation Unit}
    (settled : Settled history)
    (prepares : ∀ value later, Settled later →
      (next value).run.Obeys Free (Prepared tells) later) :
    (readOne contract function arguments extract >>= next).run.Obeys Free
      (Prepared tells) history := by
  apply obeys_readOne_bind trivial
  · intro reply value _
    exact prepares value _ (settled.append (.called _ _ reply .nil))
  · intro reply error _
    exact .asked settled (.called _ _ reply error)

/-- An allowance is seen to without leaving anything unsettled. -/
theorem prepared_ensureAllowance
    (manager : StakingManager)
    (amount : U256)
    (settled : Settled history) :
    (manager.ensureAllowance amount).run.Obeys Free (Prepared tells) history := by
  cases kind : manager.kind with
  | native =>
      rw [StakingManager.ensureAllowance_of_native kind]
      exact settled
  | erc20 =>
      cases known : manager.sender with
      | none =>
          rw [StakingManager.ensureAllowance_of_unknown kind known]
          exact prepared_readOne_bind settled fun _ _ => prepared_confirm_bind
      | some sender =>
          rw [StakingManager.ensureAllowance_of_known kind known]
          apply prepared_readOne_bind settled
          intro token later settledLater
          apply prepared_readOne_bind settledLater
          intro allowance last settledLast
          split
          · exact settledLast
          · exact prepared_confirm_bind settledLast

theorem concluded_ensureAllowance_bind
    {manager : StakingManager}
    {amount : U256}
    {transaction : Transaction}
    {next : Receipt → Operation α}
    (settled : Settled history)
    (told : ∀ receipt, ∃ outcome, (next receipt).run = .done outcome ∧ tells receipt outcome) :
    (manager.ensureAllowance amount >>= fun _ => confirm transaction >>= next).run.Obeys Free
      (Concluded tells) history :=
  obeys_bind (prepared_ensureAllowance manager amount settled)
    (fun _ _ settledLater => concluded_confirm_bind settledLater told)
    fun _ _ concluded => concluded

end Steps

/-! ## Ends -/

section Ends

variable
  {tells : Receipt → Except ManagerError α → Prop}
  {conversation settled last before after : NodeConversation}
  {outcome : Except ManagerError α}
  {transaction : Transaction}
  {hash : Hash32}

theorem sent_inj
    {other : Transaction}
    {reply otherReply : Except NodeError Hash32} :
    sent transaction reply = sent other otherReply ↔
      transaction = other ∧ reply = otherReply := by
  constructor
  · intro same
    obtain ⟨questions, replies⟩ := Exchange.mk.inj same
    obtain rfl := NodeQuestion.send.inj questions
    exact ⟨rfl, eq_of_heq replies⟩
  · rintro ⟨rfl, rfl⟩
    rfl

theorem awaited_inj {reply otherReply : Except NodeError (Option Receipt)} :
    awaited hash reply = awaited hash otherReply ↔ reply = otherReply := by
  constructor
  · intro same
    exact eq_of_heq (Exchange.mk.inj same).2
  · rintro rfl
    rfl

theorem awaited_ne_sent
    {reply : Except NodeError (Option Receipt)}
    {sentReply : Except NodeError Hash32} :
    awaited hash reply ≠ sent transaction sentReply :=
  nofun

/-- What was asked last about a transaction is cut in front of it or not at all. -/
theorem cut_awaited
    {other : Transaction}
    {otherHash : Hash32}
    {reply : Except NodeError (Option Receipt)}
    {later : NodeConversation}
    (same : sent other (.ok otherHash) :: awaited otherHash reply :: later =
      before ++ sent transaction (.ok hash) :: after) :
    (otherHash = hash ∧ after = awaited hash reply :: later) ∨
      ∃ between, later = between ++ sent transaction (.ok hash) :: after := by
  cases before with
  | nil =>
      obtain ⟨first, rest⟩ := List.cons.inj same
      obtain ⟨rfl, hashes⟩ := sent_inj.mp first
      obtain rfl := Except.ok.inj hashes
      exact .inl ⟨rfl, rest.symm⟩
  | cons exchange before =>
      obtain ⟨rfl, further⟩ := List.cons.inj same
      cases before with
      | nil => exact absurd (List.cons.inj further).1 awaited_ne_sent
      | cons exchange between =>
          obtain ⟨rfl, rest⟩ := List.cons.inj further
          exact .inr ⟨between, rest⟩

/-- An accepted transaction belongs to the settled part of a conversation, where its confirmation
follows at once, or to what comes behind. -/
theorem Settled.cut
    (isSettled : Settled settled)
    (same : settled ++ last = before ++ sent transaction (.ok hash) :: after) :
    (∃ receipt later, after = awaited hash (.ok (some receipt)) :: (later ++ last) ∧
        receipt.reverted = false) ∨
      ∃ between, last = between ++ sent transaction (.ok hash) :: after := by
  induction isSettled generalizing before with
  | nil => exact .inr ⟨before, same⟩
  | called contract data reply _ inductionHypothesis =>
      cases before with
      | nil => exact absurd (List.cons.inj same).1 called_ne_sent
      | cons exchange before => exact inductionHypothesis (List.cons.inj same).2
  | @confirmed _ _ receipt unreverted later _ inductionHypothesis =>
      rcases cut_awaited same with ⟨-, rfl⟩ | ⟨between, rest⟩
      · exact .inl ⟨receipt, later, rfl, unreverted⟩
      · exact inductionHypothesis rest

/-- The last step holds an accepted transaction only in front of the answer about its receipt. -/
theorem Final.accepted
    (final : Final tells last outcome)
    (same : last = before ++ sent transaction (.ok hash) :: after) :
    ∃ reply, after = [awaited hash reply] ∧
      (∀ error, confirmation hash reply = .error error → outcome = .error error) ∧
      ∀ receipt, confirmation hash reply = .ok receipt → tells receipt outcome := by
  cases final with
  | called contract data reply error =>
      rcases List.singleton_eq_append_iff.mp same with ⟨-, first⟩ | ⟨-, rest⟩
      · exact absurd (List.cons.inj first).1.symm called_ne_sent
      · exact nomatch rest
  | refused other cause =>
      rcases List.singleton_eq_append_iff.mp same with ⟨-, first⟩ | ⟨-, rest⟩
      · exact nomatch (sent_inj.mp (List.cons.inj first).1).2
      · exact nomatch rest
  | @unconfirmed other otherHash reply error failed =>
      rcases cut_awaited same with ⟨rfl, rfl⟩ | ⟨between, rest⟩
      · refine ⟨reply, rfl, fun other failedToo => ?_, fun receipt confirmed => ?_⟩
        · rw [failed] at failedToo
          exact congrArg Except.error (Except.error.inj failedToo)
        · rw [failed] at confirmed
          exact nomatch confirmed
      · exact absurd rest.symm (by simp)
  | @confirmed other otherHash receipt _ unreverted told =>
      have known : confirmation otherHash (.ok (some receipt)) = .ok receipt :=
        confirmation_eq_ok_iff.mpr ⟨rfl, unreverted⟩
      rcases cut_awaited same with ⟨rfl, rfl⟩ | ⟨between, rest⟩
      · refine ⟨.ok (some receipt), rfl, fun error failed => ?_, fun other confirmed => ?_⟩
        · rw [known] at failed
          exact nomatch failed
        · rw [known] at confirmed
          rwa [← Except.ok.inj confirmed]
      · exact absurd rest.symm (by simp)

/-- An accepted transaction is followed by the question for its receipt, and nothing follows what
does not confirm it. -/
theorem Concluded.accepted
    (concluded : Concluded tells conversation outcome)
    (same : conversation = before ++ sent transaction (.ok hash) :: after) :
    ∃ reply later, after = awaited hash reply :: later ∧
      ∀ error, confirmation hash reply = .error error →
        later = [] ∧ outcome = .error error := by
  cases concluded with
  | unasked error => exact absurd same (by simp)
  | asked isSettled final =>
      rcases isSettled.cut same with ⟨receipt, later, rfl, unreverted⟩ | ⟨between, lastSame⟩
      · refine ⟨.ok (some receipt), _, rfl, fun error failed => ?_⟩
        rw [confirmation_some, unreverted] at failed
        exact nomatch failed
      · obtain ⟨reply, rfl, failed, -⟩ := final.accepted lastSame
        exact ⟨reply, [], rfl, fun error unconfirmed => ⟨rfl, failed error unconfirmed⟩⟩

/-- An operation succeeds only with a receipt that does not report a failure. -/
theorem Concluded.exists_of_ok
    {value : α}
    (concluded : Concluded tells conversation (.ok value)) :
    ∃ before transaction hash receipt,
      conversation = before ++ [sent transaction (.ok hash), awaited hash (.ok (some receipt))] ∧
        receipt.reverted = false := by
  cases concluded with
  | asked isSettled final =>
      cases final with
      | confirmed transaction hash unreverted told =>
          exact ⟨_, transaction, hash, _, rfl, unreverted⟩

/-- The receipt with which a conversation ends is told of, unless it reports a failure. -/
theorem Concluded.told
    {receipt : Receipt}
    (concluded : Concluded tells conversation outcome)
    (same : conversation =
      before ++ [sent transaction (.ok hash), awaited hash (.ok (some receipt))])
    (unreverted : receipt.reverted = false) :
    tells receipt outcome := by
  cases concluded with
  | unasked error => exact absurd same (by simp)
  | asked isSettled final =>
      rcases isSettled.cut same with ⟨_, later, rest, -⟩ | ⟨between, lastSame⟩
      · -- The last step would have to be empty.
        obtain ⟨-, last⟩ := List.append_eq_nil_iff.mp (List.cons.inj rest).2.symm
        subst last
        exact nomatch final
      · obtain ⟨reply, awaitedSame, -, told⟩ := final.accepted lastSame
        obtain rfl := awaited_inj.mp (List.cons.inj awaitedSame).1
        exact told receipt (confirmation_eq_ok_iff.mpr ⟨rfl, unreverted⟩)

end Ends

end Operation
end Valset
