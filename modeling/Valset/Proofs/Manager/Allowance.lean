import Valset.Manager.StakingManager
import Valset.Proofs.Manager.Operation

/-!
# Allowances

What a staking manager with a token of its own asks before it takes stake: which token that is, how
much of it the manager may take from the sender if the sender is known, and, unless that suffices,
that the stake is approved.
-/

namespace Valset
namespace StakingManager

open Operation

/-- The transaction that lets a manager take an amount of a token. -/
def approval (manager : StakingManager) (token : Address) (amount : U256) : Transaction :=
  callOf token TokenContract.approve [.address manager.address, .uint amount]

/-- A native manager needs no allowance. -/
theorem ensureAllowance_of_native
    {manager : StakingManager}
    (native : manager.kind = .native)
    (amount : U256) :
    (manager.ensureAllowance amount).run = .done (.ok ()) := by
  rw [ensureAllowance, stakingToken, native]
  rfl

theorem run_stakingToken_bind
    {α : Type}
    {manager : StakingManager}
    (erc20 : manager.kind = .erc20)
    (next : Option Address → Operation α) :
    (manager.stakingToken >>= next).run =
      (readOne manager.address StakingManagerContract.erc20 [] (·.address?) >>=
        fun token => next (some token)).run := by
  rw [stakingToken, erc20, run_bind, run_bind]
  change (Program.andThen _ _).andThen _ = _
  rw [Program.andThen_assoc]
  congr 1
  funext outcome
  cases outcome <;> rfl

/-- With a known sender, the allowance is asked for and decides whether the stake is approved. -/
theorem ensureAllowance_of_known
    {manager : StakingManager}
    {sender : Address}
    (erc20 : manager.kind = .erc20)
    (known : manager.sender = some sender)
    (amount : U256) :
    (manager.ensureAllowance amount).run =
      (readOne manager.address StakingManagerContract.erc20 [] (·.address?) >>= fun token =>
        readOne token TokenContract.allowance [.address sender, .address manager.address]
          (·.uint?) >>= fun allowance =>
        if amount ≤ allowance then pure ()
        else confirm (manager.approval token amount) >>= fun _ => pure ()).run := by
  rw [ensureAllowance, run_stakingToken_bind erc20, run_bind, run_bind]
  congr 1
  funext outcome
  cases outcome with
  | error error => rfl
  | ok token =>
      simp only [afterOutcome, allowanceCovers, known]
      rw [run_bind_assoc, run_bind, run_bind]
      congr 1
      funext outcome
      cases outcome with
      | error error => rfl
      | ok allowance =>
          by_cases covered : amount ≤ allowance
          · simp only [afterOutcome, covered, decide_true, if_true]
            rfl
          · simp only [afterOutcome, covered, decide_false, if_false]
            rfl

/-- Without a known sender, the stake is approved in any case. -/
theorem ensureAllowance_of_unknown
    {manager : StakingManager}
    (erc20 : manager.kind = .erc20)
    (unknown : manager.sender = none)
    (amount : U256) :
    (manager.ensureAllowance amount).run =
      (readOne manager.address StakingManagerContract.erc20 [] (·.address?) >>= fun token =>
        confirm (manager.approval token amount) >>= fun _ => pure ()).run := by
  rw [ensureAllowance, run_stakingToken_bind erc20, run_bind, run_bind]
  congr 1
  funext outcome
  cases outcome with
  | error error => rfl
  | ok token =>
      simp only [afterOutcome, allowanceCovers, unknown]
      rfl

end StakingManager
end Valset
