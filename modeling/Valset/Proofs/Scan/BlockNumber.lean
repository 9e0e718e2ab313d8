import Mathlib.Order.Bounds.Defs
import Valset.Scan.Checkpoint

/-!
# Sums of block numbers

As long as a sum of block numbers has no more than 64 bits it is what it is without a bound, and in
any case it is no more than that. A scan therefore goes on with the first block that is not complete
yet, unless the complete ones go up to the last block of all.
-/

namespace Valset.Scan

section BlockAfter

variable {block count : Nat}

@[simp] theorem blockAfter_of_lt (within : block + count < UInt64.size) :
    blockAfter block count = block + count :=
  Nat.mod_eq_of_lt within

theorem blockAfter_le (block count : Nat) : blockAfter block count ≤ block + count :=
  Nat.mod_le _ _

/-- Behind the last block comes the first one. -/
example : blockAfter (UInt64.size - 1) 1 = 0 := by
  decide

end BlockAfter

namespace Checkpoint

/-- A block that is not complete is behind all that are, and the first one is where scanning goes
on. -/
theorem isLeast_resumeFrom
    {checkpoint : Checkpoint}
    (within : ∀ block ∈ checkpoint.block, block + 1 < UInt64.size)
    (start : Nat) :
    IsLeast {block | start ≤ block ∧ checkpoint.covers block = false}
      (checkpoint.resumeFrom start) := by
  rcases checkpoint with ⟨path, chain, _ | current⟩
  · exact ⟨⟨Nat.le_refl _, rfl⟩, fun block open' => open'.1⟩
  · have next := blockAfter_of_lt (within current rfl)
    constructor
    · refine ⟨Nat.le_max_left _ _, ?_⟩
      simp only [covers, resumeFrom, next, decide_eq_false_iff_not]
      omega
    · rintro block ⟨behind, incomplete⟩
      simp only [covers, decide_eq_false_iff_not] at incomplete
      simp only [resumeFrom, next]
      omega

end Checkpoint
end Valset.Scan
