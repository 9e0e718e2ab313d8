import Mathlib.Data.List.DropRight
import Mathlib.Data.List.Forall2
import Valset.Proofs.Bytes
import Valset.Warp

/-!
# Messages read back from an access list

The slots of an entry put together are a message, the byte that marks its end, and zeros. Whatever
the message ends in, the last byte that is not zero is the mark, so the message stands in front of
it.
-/

namespace Valset
namespace Warp

/-- The message in front of the mark and the zeros with which bytes end. -/
def unpadded? (bytes : Bytes) : Option Bytes :=
  let marked := bytes.rdropWhile (· == 0)
  if marked.getLast? = some endByte then some marked.dropLast else none

/-- The message that an entry of an access list holds. -/
def messageOf? (entry : AccessEntry) : Option Bytes :=
  unpadded? (entry.storageKeys.flatMap FixedBytes.bytes)

/-- An entry holds a message in as many slots as the message and its mark fill. -/
structure Holds (entry : AccessEntry) (message : Bytes) : Prop where
  address : entry.address = precompile
  slots : entry.storageKeys.length = message.length / 32 + 1
  message : messageOf? entry = some message

/-! ## Slots -/

theorem length_padded (message : Bytes) :
    (padded message).length = 32 * (message.length / 32 + 1) := by
  simp only [padded, Bytes.zeros, List.length_append, List.length_replicate, List.length_singleton]
  omega

/-- Zeros behind the mark are dropped, and the mark keeps what stands in front of it. -/
theorem unpadded?_padded (message : Bytes) : unpadded? (padded message) = some message := by
  have zerosDropped (count : Nat) :
      ((message ++ [endByte]) ++ Bytes.zeros count).rdropWhile (· == 0) =
        message ++ [endByte] := by
    induction count with
    | zero =>
        rw [Bytes.zeros, List.replicate_zero, List.append_nil]
        exact List.rdropWhile_concat_neg _ _ _ (by decide)
    | succ count inductionHypothesis =>
        rw [Bytes.zeros, List.replicate_succ', ← List.append_assoc,
          List.rdropWhile_concat_pos _ _ _ rfl]
        exact inductionHypothesis
  rw [unpadded?, padded, zerosDropped, List.getLast?_concat, if_pos rfl, List.dropLast_concat]

theorem length_slots (message : Bytes) : (slots message).length = message.length / 32 + 1 := by
  have enough : message.length / 32 + 1 ≤ (padded message).length := by
    rw [length_padded]
    omega
  rw [slots, List.length_map]
  exact (Bytes.chunks_go_sized (by decide) enough (length_padded message)).1

/-- The slots of a message put together are its padded form; no slot is partial. -/
theorem flatMap_bytes_slots (message : Bytes) :
    (slots message).flatMap FixedBytes.bytes = padded message := by
  have enough : message.length / 32 + 1 ≤ (padded message).length := by
    rw [length_padded]
    omega
  have sized := (Bytes.chunks_go_sized (by decide) enough (length_padded message)).2
  have whole : (Bytes.chunks 32 (padded message)).map (Bytes.fit 32) =
      Bytes.chunks 32 (padded message) := by
    apply (List.map_congr_left _).trans (List.map_id _)
    intro piece present
    exact Bytes.fit_eq_self (sized piece present)
  calc (slots message).flatMap FixedBytes.bytes
      = ((Bytes.chunks 32 (padded message)).map (Bytes.fit 32)).flatten := by
        rw [slots, List.flatMap_map]
        rfl
    _ = padded message := by rw [whole, Bytes.flatten_chunks (by decide)]

/-! ## Access lists -/

theorem holds_entry (message : Bytes) : Holds (entry message) message where
  address := rfl
  slots := length_slots message
  message := by rw [messageOf?, entry, flatMap_bytes_slots, unpadded?_padded]

/-- Entries that hold messages give them back in their order. -/
theorem map_messageOf?
    {entries : List AccessEntry}
    {messages : List Bytes}
    (held : List.Forall₂ Holds entries messages) :
    entries.map messageOf? = messages.map some := by
  induction held with
  | nil => rfl
  | cons holds _ inductionHypothesis =>
      rw [List.map_cons, List.map_cons, holds.message, inductionHypothesis]

theorem attach_eq_ok_iff
    {transaction attached : Transaction}
    {messages : List Bytes}
    {index : UInt32} :
    attach transaction messages index = .ok attached ↔
      index.toNat < messages.length ∧
        attached = { transaction with accessList := messages.map entry } := by
  rw [attach]
  split
  · simp [*, eq_comm]
  · simp [*]

/-- Messages are attached exactly when the index names one of them. The access list then holds them
one for one, nothing else in the transaction is changed, and no other messages have the same access
list. -/
theorem attached_messages_readable
    (transaction : Transaction)
    (messages : List Bytes)
    (index : UInt32) :
    ((∃ attached, attach transaction messages index = .ok attached) ↔
        index.toNat < messages.length) ∧
      ∀ attached, attach transaction messages index = .ok attached →
        List.Forall₂ Holds attached.accessList messages ∧
        attached = { transaction with accessList := attached.accessList } ∧
        ∀ otherTransaction otherMessages otherIndex otherAttached,
          attach otherTransaction otherMessages otherIndex = .ok otherAttached →
          otherAttached.accessList = attached.accessList → otherMessages = messages := by
  have held (messages : List Bytes) : List.Forall₂ Holds (messages.map entry) messages := by
    rw [List.forall₂_map_left_iff, List.forall₂_same]
    intro message _
    exact holds_entry message
  constructor
  · simp [attach_eq_ok_iff]
  · intro attached attachedOk
    obtain ⟨_, rfl⟩ := attach_eq_ok_iff.mp attachedOk
    refine ⟨held messages, rfl, ?_⟩
    intro otherTransaction otherMessages otherIndex otherAttached otherOk sameList
    obtain ⟨_, rfl⟩ := attach_eq_ok_iff.mp otherOk
    have sameMessages := congrArg (List.map messageOf?) sameList
    rw [map_messageOf? (held otherMessages), map_messageOf? (held messages)] at sameMessages
    exact List.map_injective_iff.mpr (fun _ _ => Option.some.inj) sameMessages

/-- Messages that end in the mark, in a zero, or with the end of a slot. -/
def sampleMessages : List Bytes :=
  [[], [1, 0xff], [0xff, 0], List.replicate 32 0xff]

/-- A call without messages. -/
def sampleCall : Transaction where
  target := FixedBytes.zero
  data := [1, 2, 3, 4]
  value := 5

/-- The sample messages are read back from what is attached to the sample call, and in reverse order
something else is attached. -/
theorem sampleMessages_readable :
    ∃ attached, attach sampleCall sampleMessages 3 = .ok attached ∧
      List.Forall₂ Holds attached.accessList sampleMessages ∧
      attached = { sampleCall with accessList := attached.accessList } ∧
      attached.accessList.map (·.storageKeys.length) = [1, 1, 1, 2] ∧
      ∀ other, attach sampleCall sampleMessages.reverse 3 = .ok other →
        other.accessList ≠ attached.accessList := by
  obtain ⟨attachable, readable⟩ := attached_messages_readable sampleCall sampleMessages 3
  obtain ⟨attached, attachedOk⟩ := attachable.mpr (by decide)
  obtain ⟨held, unchanged, unlike⟩ := readable attached attachedOk
  refine ⟨attached, attachedOk, held, unchanged, ?_, ?_⟩
  · have slotCounts : attached.accessList.map (·.storageKeys.length) =
        sampleMessages.map (·.length / 32 + 1) := by
      rw [← List.forall₂_eq_eq_eq, List.forall₂_map_left_iff, List.forall₂_map_right_iff]
      exact held.imp fun _ _ holds => holds.slots
    rw [slotCounts]
    rfl
  · intro other otherOk sameList
    exact absurd (unlike _ _ _ other otherOk sameList) (by decide)

end Warp
end Valset
