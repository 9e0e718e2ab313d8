import Mathlib.Data.List.Chain
import Valset.Proofs.Scan.BlockNumber
import Valset.Scan.History

/-!
# Windows of blocks

The windows in which a range of blocks is looked at follow each other without a gap and without an
overlap, so that each block of the range is looked at once. This needs some room for the numbers of
blocks behind the range.
-/

namespace Valset
namespace Scan

/-- Windows that divide the blocks from `first` to `last` into pieces of `size` blocks, the last of
which may be shorter. -/
structure Tiles (first last size : Nat) (windows : List (Nat × Nat)) : Prop where
  within : ∀ window ∈ windows, first ≤ window.1 ∧ window.1 ≤ window.2 ∧ window.2 ≤ last
  begins : ∀ window ∈ windows.head?, window.1 = first
  follow : windows.IsChain fun window next => next.1 = window.2 + 1
  full : ∀ window ∈ windows.dropLast, window.2 + 1 = window.1 + size
  bounded : ∀ window ∈ windows.getLast?, window.2 + 1 ≤ window.1 + size
  ends : ∀ window ∈ windows.getLast?, window.2 = last

/-- Whether a block lies in a window. -/
def inWindow (block : Nat) (window : Nat × Nat) : Bool :=
  window.1 ≤ block ∧ block ≤ window.2

theorem blockWindows_eq_nil_iff
    {first last size : Nat}
    (positive : 0 < size) :
    blockWindows first last size = [] ↔ last < first := by
  rw [blockWindows]
  split
  · rename_i nonempty
    simp [nonempty.1]
  · simp only [true_iff]
    omega

/-- A window may be put in front of windows that go on behind it. -/
theorem Tiles.cons
    {first last size : Nat}
    {windows : List (Nat × Nat)}
    (nonempty : first ≤ last)
    (positive : 0 < size)
    (last_lt : windows = [] ↔ last < first + size)
    (tiles : Tiles (first + size) last size windows) :
    Tiles first last size ((first, min last (first + (size - 1))) :: windows) := by
  -- Whether the new window is cut at the end depends on whether others stand behind it.
  cases windows with
  | nil =>
      have short : last < first + size := last_lt.mp rfl
      have cut : min last (first + (size - 1)) = last := by omega
      rw [cut]
      exact {
        within := by simp [nonempty]
        begins := by simp
        follow := .singleton _
        full := by simp
        bounded := by simpa using Nat.succ_le_of_lt short
        ends := by simp }
  | cons next further =>
      have long : first + size ≤ last := not_lt.mp (mt last_lt.mpr (List.cons_ne_nil _ _))
      have whole : min last (first + (size - 1)) = first + (size - 1) := by omega
      have start : next.1 = first + size := tiles.begins next rfl
      rw [whole]
      refine {
        within := fun window present => ?_
        begins := by simp
        follow := .cons_cons ?_ tiles.follow
        full := fun window present => ?_
        bounded := tiles.bounded
        ends := tiles.ends }
      · rcases List.mem_cons.mp present with rfl | behind
        · dsimp only
          omega
        · have inside := tiles.within window behind
          omega
      · dsimp only
        omega
      · rcases List.mem_cons.mp present with rfl | behind
        · dsimp only
          omega
        · exact tiles.full window behind

section Room

variable {first last size : Nat}

theorem tiles_blockWindows
    (positive : 0 < size)
    (room : last + size < UInt64.size) :
    Tiles first last size (blockWindows first last size) := by
  fun_induction blockWindows first last size with
  | case1 first nonempty inductionHypothesis =>
      rw [blockAfter_of_lt (by omega)]
      exact inductionHypothesis.cons nonempty.1 positive (blockWindows_eq_nil_iff positive)
  | case2 => constructor <;> simp

/-- A block of a range lies in one window at one place of the list. -/
theorem countP_inWindow_blockWindows
    {block : Nat}
    (positive : 0 < size)
    (room : last + size < UInt64.size)
    (above : first ≤ block)
    (below : block ≤ last) :
    (blockWindows first last size).countP (inWindow block) = 1 := by
  fun_induction blockWindows first last size with
  | case1 first nonempty inductionHypothesis =>
      rw [blockAfter_of_lt (by omega), List.countP_cons]
      by_cases here : block < first + size
      · have nowhereElse : (blockWindows (first + size) last size).countP (inWindow block) = 0 := by
          refine List.countP_eq_zero.mpr fun window present => ?_
          have behind := ((tiles_blockWindows positive room).within window present).1
          simp only [inWindow, decide_eq_true_eq]
          omega
        have inFirst : inWindow block (first, min last (first + (size - 1))) = true := by
          simp only [inWindow, decide_eq_true_eq]
          omega
        rw [nowhereElse, inFirst, if_pos rfl]
      · have notInFirst : inWindow block (first, min last (first + (size - 1))) = false := by
          simp only [inWindow, decide_eq_false_iff_not]
          omega
        rw [inductionHypothesis (by omega), notInFirst, if_neg Bool.false_ne_true]
  | case2 first empty => omega

end Room

/-- There are no windows exactly if the range is empty. As long as the end of the range leaves room
for one more window, no sum that is formed for a window goes beyond 64 bits: the windows divide the
range into pieces of the wanted size, and each block of the range lies in one of them. -/
theorem blockWindows_tile_range
    (first last : Nat)
    {size : Nat}
    (positive : 0 < size) :
    (blockWindows first last size = [] ↔ last < first) ∧
      (last + size < UInt64.size →
        Tiles first last size (blockWindows first last size) ∧
          (∀ block, first ≤ block → block ≤ last →
            (blockWindows first last size).countP (inWindow block) = 1) ∧
          ∀ window ∈ blockWindows first last size, window.1 + size < UInt64.size) := by
  refine ⟨blockWindows_eq_nil_iff positive, fun room => ?_⟩
  have tiles : Tiles first last size (blockWindows first last size) :=
    tiles_blockWindows positive room
  refine ⟨tiles, ?_, ?_⟩
  · intro block above below
    exact countP_inWindow_blockWindows positive room above below
  · intro window present
    have inside := tiles.within window present
    omega

/-- A range of one block more than two windows hold. -/
theorem blockWindows_tile_eleven :
    0 < 5 ∧ Tiles 0 10 5 [(0, 4), (5, 9), (10, 10)] := by
  have windows : blockWindows 0 10 5 = [(0, 4), (5, 9), (10, 10)] := by
    simp [blockWindows, blockAfter, UInt64.size]
  have tiled := ((@blockWindows_tile_range 0 10 5 (by decide)).2 (by decide)).1
  rw [windows] at tiled
  exact ⟨by decide, tiled⟩

/-! ## Pages -/

/-- A window that one question for logs covers, up to a head with room behind it. -/
structure OnePage (head : Nat) (window : Nat × Nat) : Prop where
  inOrder : window.1 ≤ window.2
  below : window.2 ≤ head
  short : window.2 < window.1 + pageSize
  room : head + pageSize < UInt64.size

theorem pageSize_pos : 0 < pageSize := by
  decide

theorem onePage_of_mem_blockWindows
    {first last : Nat}
    (room : last + pageSize < UInt64.size)
    {window : Nat × Nat}
    (present : window ∈ blockWindows first last pageSize) :
    OnePage last window := by
  have positive := pageSize_pos
  fun_induction blockWindows first last pageSize with
  | case1 first nonempty inductionHypothesis =>
      rcases List.mem_cons.mp present with rfl | behind
      · rw [blockAfter_of_lt (by omega)]
        exact ⟨by dsimp only; omega, Nat.min_le_left _ _, by dsimp only; omega, room⟩
      · exact inductionHypothesis behind
  | case2 => cases present

/-- There is one question for one page. -/
theorem OnePage.blockWindows_eq
    {head : Nat}
    {window : Nat × Nat}
    (page : OnePage head window) :
    blockWindows window.1 window.2 pageSize = [window] := by
  obtain ⟨inOrder, below, short, room⟩ := page
  have none : blockWindows (window.1 + pageSize) window.2 pageSize = [] :=
    (blockWindows_eq_nil_iff pageSize_pos).mpr short
  have whole : min window.2 (window.1 + (pageSize - 1)) = window.2 := by omega
  rw [blockWindows, dif_pos ⟨inOrder, pageSize_pos⟩, blockAfter_of_lt (by omega), none, whole]

end Scan
end Valset
