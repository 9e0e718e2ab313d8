import Mathlib.Data.List.Basic
import Valset.Hash.Scrypt
import Valset.Proofs.Bytes
import Valset.Wallet.Aes

/-!
# Encrypting in counter mode

A text that is encrypted twice in counter mode comes back, because the stream that is added to it is
long enough. The lengths of stretched passwords are those that were asked for.
-/

namespace Valset

/-! ## Counter mode -/

namespace Aes

@[simp] theorem length_xor (x y : Bytes) : (xor x y).length = min x.length y.length :=
  List.length_zipWith

/-- Adding a long enough stream twice changes nothing. -/
theorem xor_xor
    {text stream : Bytes}
    (enough : text.length ≤ stream.length) :
    xor (xor text stream) stream = text := by
  apply List.ext_getElem
  · simp
    omega
  · intro index _ _
    simp only [xor, List.getElem_zipWith]
    rw [UInt8.xor_assoc, UInt8.xor_self, UInt8.xor_zero]

/-- Four words of four bytes. -/
structure Words (key : List Bytes) : Prop where
  count : key.length = 4
  sized : ∀ word ∈ key, word.length = 4

theorem Words.length_flatten {key : List Bytes} (words : Words key) : key.flatten.length = 16 := by
  rw [length_flatten_of_forall 4 words.sized, words.count]

/-- A block of 16 bytes is cut into words. -/
theorem words_chunks {block : Bytes} (sized : block.length = 16) :
    Words (Bytes.chunks 4 block) := by
  have enough : 4 ≤ block.length := by omega
  have wholeWords : block.length = 4 * 4 := sized
  obtain ⟨count, pieces⟩ := Bytes.chunks_go_sized (by decide) enough wholeWords
  exact ⟨count, pieces⟩

theorem length_addWords (last : Bytes) (words : List Bytes) :
    (addWords last words).length = words.length := by
  induction words generalizing last with
  | nil => rfl
  | cons word words inductionHypothesis =>
      simp [addWords, inductionHypothesis]

theorem length_of_mem_addWords
    {last word : Bytes}
    {words : List Bytes}
    (sizedLast : last.length = 4)
    (sized : ∀ word ∈ words, word.length = 4)
    (present : word ∈ addWords last words) :
    word.length = 4 := by
  induction words generalizing last with
  | nil => cases present
  | cons first words inductionHypothesis =>
      have sizedNext : (xor last first).length = 4 := by
        rw [length_xor, sizedLast, sized first List.mem_cons_self, Nat.min_self]
      rcases List.mem_cons.mp present with rfl | later
      · exact sizedNext
      · exact inductionHypothesis sizedNext
          (fun other inWords => sized other (List.mem_cons_of_mem _ inWords)) later

/-- The next round key consists of words. -/
theorem Words.nextKey
    {key : List Bytes}
    (words : Words key)
    (constant : UInt8) :
    Words (nextKey constant key) := by
  have nonempty : key ≠ [] := by
    rintro rfl
    cases words.count
  have sizedLast : ((turnWord (key.getLast?.getD [])).map substitute).length = 4 := by
    have sized := words.sized _ (List.getLast_mem nonempty)
    rw [List.getLast?_eq_some_getLast nonempty, Option.getD_some, List.length_map]
    cases shape : key.getLast nonempty with
    | nil => simp [shape] at sized
    | cons first rest => simpa [shape, turnWord] using sized
  refine ⟨(length_addWords _ _).trans words.count, ?_⟩
  intro word present
  exact length_of_mem_addWords (by rw [length_xor, sizedLast]; rfl) words.sized present

/-- All round keys have 16 bytes. -/
theorem length_of_mem_laterKeys
    {count : Nat}
    {constant : UInt8}
    {key : List Bytes}
    (words : Words key)
    {roundKey : Bytes}
    (present : roundKey ∈ laterKeys count constant key) :
    roundKey.length = 16 := by
  induction count generalizing constant key with
  | zero => cases present
  | succ count inductionHypothesis =>
      rcases List.mem_cons.mp present with rfl | later
      · exact (words.nextKey constant).length_flatten
      · exact inductionHypothesis (words.nextKey constant) later

@[simp] theorem length_shiftRows (block : Bytes) : (shiftRows block).length = 16 := by
  simp [shiftRows]

theorem length_mixColumn (column : Bytes) : (mixColumn column).length = column.length := by
  unfold mixColumn
  split <;> rfl

theorem length_mixColumns {block : Bytes} (sized : block.length = 16) :
    (mixColumns block).length = 16 := by
  obtain ⟨count, pieces⟩ := words_chunks sized
  rw [mixColumns, List.flatMap_def, length_flatten_of_forall 4, List.length_map, count]
  intro piece present
  obtain ⟨column, inBlock, rfl⟩ := List.mem_map.mp present
  rw [length_mixColumn, pieces column inBlock]

/-- A block keeps its length through all rounds. -/
theorem length_rounds
    {keys : List Bytes}
    (sizedKeys : ∀ key ∈ keys, key.length = 16)
    {block : Bytes}
    (sized : block.length = 16) :
    (rounds keys block).length = 16 := by
  induction keys generalizing block with
  | nil => exact sized
  | cons key keys inductionHypothesis =>
      have sizedKey := sizedKeys key List.mem_cons_self
      cases keys with
      | nil => simp [rounds, sizedKey]
      | cons next keys =>
          apply inductionHypothesis
          · intro other present
            exact sizedKeys other (List.mem_cons_of_mem _ present)
          · rw [length_xor, length_mixColumns (length_shiftRows _), sizedKey, Nat.min_self]

/-- A block is encrypted as a block. -/
theorem length_encryptBlock
    {key block : Bytes}
    (sizedKey : key.length = 16)
    (sized : block.length = 16) :
    (encryptBlock key block).length = 16 := by
  apply length_rounds
  · intro roundKey present
    exact length_of_mem_laterKeys (words_chunks sizedKey) present
  · rw [length_xor, sized, sizedKey, Nat.min_self]

/-- The blocks of a counter have 16 bytes each. -/
theorem length_counterBlocks
    {key : Bytes}
    (sizedKey : key.length = 16)
    (count counter : Nat) :
    (counterBlocks key count counter).length = 16 * count := by
  induction count generalizing counter with
  | zero => rfl
  | succ count inductionHypothesis =>
      rw [counterBlocks, List.length_append, inductionHypothesis,
        length_encryptBlock sizedKey (Bytes.length_ofNat 16 counter)]
      omega

/-- Text is encrypted as a text of the same length. -/
theorem length_counterMode
    {key : Bytes}
    (sizedKey : key.length = 16)
    (start text : Bytes) :
    (counterMode key start text).length = text.length := by
  rw [counterMode, length_xor, length_counterBlocks sizedKey]
  omega

/-- Encrypting twice in counter mode gives back the text. -/
theorem counterMode_counterMode
    {key : Bytes}
    (sizedKey : key.length = 16)
    (start text : Bytes) :
    counterMode key start (counterMode key start text) = text := by
  have same := length_counterMode sizedKey start text
  rw [counterMode, same, counterMode]
  apply xor_xor
  rw [length_counterBlocks sizedKey]
  omega

end Aes

/-! ## Stretched passwords -/

theorem Pbkdf2.length_stretch
    {password last sum : Bytes}
    {rounds : Nat}
    (sized : sum.length = 32) :
    (stretch password rounds last sum).length = 32 := by
  induction rounds generalizing last sum with
  | zero => exact sized
  | succ rounds inductionHypothesis =>
      apply inductionHypothesis
      rw [List.length_zipWith, sized, FixedBytes.length_bytes, Nat.min_self]

theorem Pbkdf2.length_block (password salt : Bytes) (rounds index : Nat) :
    (block password salt rounds index).length = 32 :=
  length_stretch (FixedBytes.length_bytes _)

/-- A key is derived with as many bytes as are asked for. -/
theorem Pbkdf2.length_derive (password salt : Bytes) (rounds size : Nat) :
    (derive password salt rounds size).length = size := by
  rw [derive, List.length_take, List.flatMap_def, length_flatten_of_forall 32]
  · simp
    omega
  · intro piece present
    obtain ⟨index, _, rfl⟩ := List.mem_map.mp present
    exact length_block password salt rounds (index + 1)

end Valset
