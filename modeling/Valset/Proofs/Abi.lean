import Valset.Contract.Function
import Valset.Proofs.Bytes

/-!
# Positions in call data

The heads of a sequence of arguments stand one behind the other, each in its own size. A number
among the arguments is therefore found at a position that depends only on the sizes of the heads in
front of it.
-/

namespace Valset
namespace Abi

@[simp] theorem length_word (value : Nat) : (word value).length = 32 :=
  Bytes.length_ofNat 32 value

namespace Part

theorem headsSize_append (front back : List Part) :
    headsSize (front ++ back) = headsSize front + headsSize back := by
  induction front with
  | nil => simp [headsSize]
  | cons part rest inductionHypothesis =>
      rw [List.cons_append, headsSize, headsSize, inductionHypothesis, Nat.add_assoc]

theorem length_heads
    (offset : Nat)
    (parts : List Part) :
    (heads offset parts).length = headsSize parts := by
  induction parts generalizing offset with
  | nil => rfl
  | cons part rest inductionHypothesis =>
      rw [heads, headsSize, headSize]
      split <;> simp [inductionHypothesis]

/-- The heads of a sequence begin with the heads of its first parts. -/
theorem exists_heads_append
    (offset : Nat)
    (front back : List Part) :
    ∃ later, heads offset (front ++ back) = heads offset front ++ heads later back := by
  induction front generalizing offset with
  | nil => exact ⟨offset, rfl⟩
  | cons part rest inductionHypothesis =>
      obtain ⟨later, split⟩ := inductionHypothesis
        (if part.dynamic then offset + part.encoded.length else offset)
      refine ⟨later, ?_⟩
      rw [List.cons_append, heads, heads]
      cases dynamic : part.dynamic <;> simp_all

/-- A part of fixed size stands behind the heads of the parts in front of it. -/
theorem exists_layout_eq_append
    {part : Part}
    (fixed : part.dynamic = false)
    (front back : List Part) :
    ∃ before after, layout (front ++ part :: back) = before ++ part.encoded ++ after ∧
      before.length = headsSize front := by
  let offset := headsSize (front ++ part :: back)
  obtain ⟨later, split⟩ := exists_heads_append offset front (part :: back)
  refine ⟨heads offset front, heads later back ++ tails (front ++ part :: back), ?_,
    length_heads _ _⟩
  rw [layout, split, heads, fixed]
  simp

end Part

open Abi.Part

theorem encodeParts_append (front back : List AbiValue) :
    encodeParts (front ++ back) = encodeParts front ++ encodeParts back := by
  induction front with
  | nil => rw [encodeParts, List.nil_append, List.nil_append]
  | cons value rest inductionHypothesis =>
      rw [List.cons_append, encodeParts, encodeParts, inductionHypothesis, List.cons_append]

/-- A number among values stands as a word behind the heads of the values in front of it. -/
theorem exists_encode_eq_append
    (front back : List AbiValue)
    (value : U256) :
    ∃ before after, encode (front ++ .uint value :: back) = before ++ word value.toNat ++ after ∧
      before.length = headsSize (encodeParts front) := by
  rw [encode, encodeParts_append, encodeParts, encodeValue]
  exact exists_layout_eq_append rfl (encodeParts front) (encodeParts back)

theorem headsSize_le_length_encode (values : List AbiValue) :
    headsSize (encodeParts values) ≤ (encode values).length := by
  rw [encode, layout, List.length_append, length_heads]
  exact Nat.le_add_right _ _

end Abi

namespace ContractFunction

open Abi Part

@[simp] theorem length_selector (function : ContractFunction) : function.selector.length = 4 := by
  simp [selector, selectorOf, FixedBytes.length_bytes]

/-- A number among the arguments of a call stands behind the selector and the heads of the arguments
in front of it. -/
theorem word_in_callData
    (function : ContractFunction)
    (front back : List AbiValue)
    (value : U256) :
    ((function.callData (front ++ .uint value :: back)).drop
        (4 + headsSize (encodeParts front))).take 32 =
      word value.toNat := by
  obtain ⟨before, after, split, size⟩ := exists_encode_eq_append front back value
  rw [callData, split, ← size]
  have position : 4 + before.length = (function.selector ++ before).length := by simp
  rw [position, ← List.append_assoc, ← List.append_assoc, List.append_assoc _ _ after,
    List.drop_left, List.take_left' (length_word _)]

end ContractFunction
end Valset
