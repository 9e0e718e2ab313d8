/-!
# Runs of characters

A reader takes characters, or other items, as long as a test holds. A run of them ends in front of
an item for which the test does not hold.
-/

namespace Valset
namespace Text

section Runs

variable
  {α : Type}
  {test : α → Bool}
  {run rest : List α}

/-- A run is taken up to where it ends. -/
theorem takeWhile_run
    (inside : ∀ c ∈ run, test c)
    (ends : ∀ c ∈ rest.head?, test c = false) :
    (run ++ rest).takeWhile test = run := by
  rw [List.takeWhile_append_of_pos inside]
  cases rest with
  | nil => simp
  | cons c rest => simp [ends c rfl]

/-- What stands behind a run is left. -/
theorem dropWhile_run
    (inside : ∀ c ∈ run, test c)
    (ends : ∀ c ∈ rest.head?, test c = false) :
    (run ++ rest).dropWhile test = rest := by
  rw [List.dropWhile_append_of_pos inside]
  cases rest with
  | nil => rfl
  | cons c rest => simp [ends c rfl]

/-- An item for which a test holds differs from each for which it does not. -/
theorem ne_of_test
    {c : α}
    (holds : test c)
    (other : α)
    (foreign : test other = false) :
    c ≠ other := by
  rintro rfl
  simp [holds] at foreign

end Runs

end Text
end Valset
