import Mathlib.Algebra.Group.Nat.Defs
import Mathlib.Data.List.Induction
import Valset.Bytes

/-!
# Bytes of numbers, and pieces of byte strings

A number is known from its big-endian bytes when it fits into them, and every byte string is the
written form of the number that it stands for. Byte strings of one length are ordered as these
numbers. A byte string is put together again from the pieces into which it is cut.
-/

namespace Valset
namespace Bytes

@[simp] theorem toNat_concat
    (bytes : Bytes)
    (byte : UInt8) :
    toNat (bytes ++ [byte]) = toNat bytes * 256 + byte.toNat := by
  simp [toNat]

theorem toNat_lt (bytes : Bytes) : toNat bytes < 256 ^ bytes.length := by
  induction bytes using List.reverseRecOn with
  | nil => simp [toNat]
  | append_singleton bytes byte inductionHypothesis =>
      have small := byte.toNat_lt
      rw [toNat_concat, List.length_append, List.length_singleton, Nat.pow_succ]
      omega

/-- The bytes of a number keep what fits into them. -/
theorem toNat_ofNat (width value : Nat) : toNat (ofNat width value) = value % 256 ^ width := by
  induction width generalizing value with
  | zero => simp [ofNat, toNat, Nat.mod_one]
  | succ width inductionHypothesis =>
      rw [ofNat, toNat_concat, inductionHypothesis, Nat.pow_succ, Nat.mul_comm (256 ^ width),
        Nat.mod_mul]
      simp
      omega

/-- A byte string is the written form of its number. -/
theorem ofNat_toNat (bytes : Bytes) : ofNat bytes.length (toNat bytes) = bytes := by
  induction bytes using List.reverseRecOn with
  | nil => rfl
  | append_singleton bytes byte inductionHypothesis =>
      have small := byte.toNat_lt
      have front : (toNat bytes * 256 + byte.toNat) / 256 = toNat bytes := by omega
      have last : UInt8.ofNat (toNat bytes * 256 + byte.toNat) = byte := by
        apply UInt8.toNat_inj.mp
        rw [UInt8.toNat_ofNat']
        omega
      rw [List.length_append, List.length_singleton, ofNat, toNat_concat, front, last,
        inductionHypothesis]

/-- A byte string of the right length fits as it is. -/
theorem fit_eq_self
    {width : Nat}
    {bytes : Bytes}
    (sized : bytes.length = width) :
    fit width bytes = bytes := by
  subst sized
  simp [fit, zeros]

/-! ## Pieces -/

/-- Bytes that fill whole pieces are cut into pieces of that length. -/
theorem chunks_go_sized
    {width count fuel : Nat}
    (positive : 0 < width)
    (enough : count ≤ fuel)
    {bytes : Bytes}
    (sized : bytes.length = width * count) :
    (chunks.go width fuel bytes).length = count ∧
      ∀ piece ∈ chunks.go width fuel bytes, piece.length = width := by
  induction count generalizing fuel bytes with
  | zero =>
      obtain rfl : bytes = [] := List.eq_nil_of_length_eq_zero sized
      cases fuel <;> simp [chunks.go]
  | succ count inductionHypothesis =>
      obtain ⟨fuel, rfl⟩ : ∃ less, fuel = less + 1 := ⟨fuel - 1, by omega⟩
      rw [Nat.mul_succ] at sized
      have nonempty : bytes.isEmpty = false := by
        rw [List.isEmpty_eq_false_iff]
        rintro rfl
        simp at sized
        omega
      have dropped : (bytes.drop width).length = width * count := by
        rw [List.length_drop]
        omega
      obtain ⟨counted, pieces⟩ := inductionHypothesis (Nat.le_of_succ_le_succ enough) dropped
      rw [chunks.go, nonempty]
      refine ⟨by simp [counted], ?_⟩
      intro piece present
      rcases List.mem_cons.mp present with rfl | later
      · rw [List.length_take]
        omega
      · exact pieces piece later

/-- The pieces of a byte string put together again. -/
theorem flatten_chunks
    {width : Nat}
    (positive : 0 < width)
    (bytes : Bytes) :
    (chunks width bytes).flatten = bytes := by
  suffices cut : ∀ fuel, bytes.length ≤ fuel → (chunks.go width fuel bytes).flatten = bytes from
    cut bytes.length (Nat.le_refl _)
  intro fuel
  induction fuel generalizing bytes with
  | zero =>
      intro enough
      rw [List.eq_nil_of_length_eq_zero (Nat.le_zero.mp enough)]
      rfl
  | succ fuel inductionHypothesis =>
      intro enough
      rw [chunks.go]
      split
      · rename_i empty
        rw [List.isEmpty_iff.mp empty, List.flatten_nil]
      · rename_i nonempty
        have some : 0 < bytes.length := by
          rw [List.length_pos_iff]
          exact fun empty => nonempty (List.isEmpty_iff.mpr empty)
        have dropped : (bytes.drop width).length ≤ fuel := by
          rw [List.length_drop]
          omega
        rw [List.flatten_cons, inductionHypothesis _ dropped, List.take_append_drop]

end Bytes

theorem length_flatten_of_forall
    {pieces : List Bytes}
    (width : Nat)
    (sized : ∀ piece ∈ pieces, piece.length = width) :
    pieces.flatten.length = width * pieces.length := by
  induction pieces with
  | nil => rfl
  | cons piece pieces inductionHypothesis =>
      rw [List.flatten_cons, List.length_append, sized piece List.mem_cons_self,
        inductionHypothesis fun other present => sized other (List.mem_cons_of_mem _ present),
        List.length_cons, Nat.mul_succ, Nat.add_comm]

theorem Bytes.ofNat_zero (width : Nat) : Bytes.ofNat width 0 = Bytes.zeros width := by
  induction width with
  | zero => rfl
  | succ width inductionHypothesis =>
      rw [Bytes.ofNat, Nat.zero_div, inductionHypothesis, Bytes.zeros, Bytes.zeros,
        List.replicate_succ']
      rfl

/-- Only one byte string of a length has no byte but zero. -/
theorem FixedBytes.isZero_iff
    {width : Nat}
    {fixed : FixedBytes width} :
    fixed.isZero ↔ fixed = .zero := by
  rcases fixed with ⟨bytes, sized⟩
  rw [isZero, List.all_eq_true, zero, ofNat, FixedBytes.mk.injEq, Bytes.ofNat_zero, Bytes.zeros,
    List.eq_replicate_iff]
  simp [sized]

theorem FixedBytes.fit_eq_iff
    {width : Nat}
    {bytes : Bytes}
    {fixed : FixedBytes width}
    (sized : bytes.length = width) :
    FixedBytes.fit bytes = fixed ↔ bytes = fixed.bytes := by
  rcases fixed with ⟨inner, length_inner⟩
  simp [FixedBytes.fit, Bytes.fit_eq_self sized]

/-! ## Order -/

theorem Bytes.toNat_append (front back : Bytes) :
    toNat (front ++ back) = toNat front * 256 ^ back.length + toNat back := by
  induction back using List.reverseRecOn with
  | nil => simp [toNat]
  | append_singleton back last inductionHypothesis =>
      rw [← List.append_assoc, toNat_concat, inductionHypothesis, toNat_concat, List.length_append,
        List.length_singleton, Nat.pow_succ, Nat.add_mul, Nat.mul_assoc, Nat.add_assoc]

theorem Bytes.toNat_cons
    (byte : UInt8)
    (bytes : Bytes) :
    toNat (byte :: bytes) = byte.toNat * 256 ^ bytes.length + toNat bytes := by
  have single : toNat [byte] = byte.toNat := by simp [toNat]
  rw [← single, ← toNat_append, List.singleton_append]

/-- A number that does not need all of its bytes begins with zero bytes. -/
theorem Bytes.take_eq_zeros_of_toNat_lt
    {bytes : Bytes}
    {count : Nat}
    (within : count ≤ bytes.length)
    (small : toNat bytes < 256 ^ (bytes.length - count)) :
    bytes.take count = zeros count := by
  have parts := toNat_append (bytes.take count) (bytes.drop count)
  rw [List.take_append_drop, List.length_drop] at parts
  have none : toNat (bytes.take count) = 0 := by
    by_contra some
    have large := Nat.le_mul_of_pos_left (256 ^ (bytes.length - count)) (Nat.pos_of_ne_zero some)
    omega
  have restored := ofNat_toNat (bytes.take count)
  rw [none, ofNat_zero, List.length_take_of_le within] at restored
  exact restored.symm

namespace FixedBytes

variable {width : Nat}

theorem go_iff_toNat_lt
    {one other : Bytes}
    (sized : one.length = other.length) :
    lt.go one other ↔ Bytes.toNat one < Bytes.toNat other := by
  induction one generalizing other with
  | nil =>
      rw [List.eq_nil_of_length_eq_zero sized.symm]
      simp [lt.go]
  | cons byte bytes inductionHypothesis =>
      cases other with
      | nil => cases sized
      | cons otherByte otherBytes =>
          have sizedRest : bytes.length = otherBytes.length := Nat.succ.inj sized
          have small := Bytes.toNat_lt bytes
          have smallOther := Bytes.toNat_lt otherBytes
          rw [← sizedRest] at smallOther
          rw [lt.go, Bytes.toNat_cons, Bytes.toNat_cons, ← sizedRest, Bool.or_eq_true,
            Bool.and_eq_true, decide_eq_true_iff, beq_iff_eq, inductionHypothesis sizedRest,
            UInt8.lt_iff_toNat_lt, ← UInt8.toNat_inj]
          -- The first bytes decide unless they are the same, since what follows is less than one of
          -- their steps.
          rcases Nat.lt_trichotomy byte.toNat otherByte.toNat with below | same | above
          · have step := Nat.mul_le_mul_right (256 ^ bytes.length) (Nat.succ_le_of_lt below)
            rw [Nat.succ_mul] at step
            omega
          · rw [same]
            omega
          · have step := Nat.mul_le_mul_right (256 ^ bytes.length) (Nat.succ_le_of_lt above)
            rw [Nat.succ_mul] at step
            omega

/-- Byte strings of one length are ordered as the numbers that they are. -/
theorem lt_iff_toNat_lt {one other : FixedBytes width} :
    one.lt other ↔ one.toNat < other.toNat :=
  go_iff_toNat_lt (one.length_bytes.trans other.length_bytes.symm)

theorem toNat_injective : Function.Injective (toNat : FixedBytes width → Nat) := by
  rintro ⟨one, sized⟩ ⟨other, sizedOther⟩ same
  have restored := congrArg (Bytes.ofNat width) same
  change Bytes.ofNat width (Bytes.toNat one) = Bytes.ofNat width (Bytes.toNat other) at restored
  subst sized
  rw [Bytes.ofNat_toNat, ← sizedOther, Bytes.ofNat_toNat] at restored
  simp [restored]

end FixedBytes

end Valset
