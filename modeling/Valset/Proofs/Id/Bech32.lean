import Mathlib.Algebra.Group.Nat.Defs
import Mathlib.Data.List.Induction
import Valset.Id.Bech32
import Valset.Proofs.Text.Spelling

/-!
# Bech32 text read back

Bits are listed with the most significant one first, both for the eight of a byte and for the five
of a group. Filled up with fewer than five zeros, the bits of a byte string are those of its groups,
so that the byte string comes back from them.

A step of the checksum is linear, so that the six groups which a text ends with add up to the
remainder that they were made for. The separator is the last `1` of a text, since none stands among
the characters of groups, and a readable part is the same in lower case when it is read again.
-/

namespace Valset
namespace Bech32

/-! ## Bits of a number -/

@[simp] theorem length_bitsOf (width value : Nat) : (bitsOf width value).length = width := by
  induction width generalizing value with
  | zero => rfl
  | succ width inductionHypothesis =>
      rw [bitsOf, List.length_append, inductionHypothesis, List.length_singleton]

/-- A further bit doubles a number and is added to it. -/
theorem ofBits_concat
    (bits : List Bool)
    (bit : Bool) :
    ofBits (bits ++ [bit]) = 2 * ofBits bits + bit.toNat := by
  simp [ofBits]

/-- Bits stand for a number below the power of two of their count. -/
theorem ofBits_lt (bits : List Bool) : ofBits bits < 2 ^ bits.length := by
  induction bits using List.reverseRecOn with
  | nil => exact Nat.one_pos
  | append_singleton bits bit inductionHypothesis =>
      have atMostOne := bit.toNat_le
      rw [ofBits_concat, List.length_append, List.length_singleton, Nat.pow_succ]
      omega

/-- A number comes back from its bits if there are enough of them. -/
theorem ofBits_bitsOf
    {width value : Nat}
    (small : value < 2 ^ width) :
    ofBits (bitsOf width value) = value := by
  induction width generalizing value with
  | zero =>
      obtain rfl := Nat.lt_one_iff.mp small
      rfl
  | succ width inductionHypothesis =>
      rw [Nat.pow_succ] at small
      have half : value / 2 < 2 ^ width := by omega
      rw [bitsOf, ofBits_concat, inductionHypothesis half]
      rcases Nat.mod_two_eq_zero_or_one value with even | odd
      · rw [even]
        change 2 * (value / 2) + 0 = value
        omega
      · rw [odd]
        change 2 * (value / 2) + 1 = value
        omega

/-- Bits come back from their number. -/
theorem bitsOf_ofBits (bits : List Bool) : bitsOf bits.length (ofBits bits) = bits := by
  induction bits using List.reverseRecOn with
  | nil => rfl
  | append_singleton bits bit inductionHypothesis =>
      have half : (2 * ofBits bits + bit.toNat) / 2 = ofBits bits := by
        have atMostOne := bit.toNat_le
        omega
      have last : ((2 * ofBits bits + bit.toNat) % 2 == 1) = bit := by
        rw [Nat.mul_add_mod]
        cases bit <;> rfl
      rw [List.length_append, List.length_singleton, bitsOf, ofBits_concat, half, last,
        inductionHypothesis]

/-! ## Groups -/

/-- The last group is filled up to five bits. -/
theorem length_take_append_replicate (bits : List Bool) :
    (bits.take 5 ++ List.replicate (5 - bits.length) false).length = 5 := by
  rw [List.length_append, List.length_take, List.length_replicate]
  omega

/-- The five bits of the next group. -/
theorem bitsOf_takeGroup (bits : List Bool) :
    bitsOf 5 (takeGroup bits) = bits.take 5 ++ List.replicate (5 - bits.length) false := by
  have back := bitsOf_ofBits (bits.take 5 ++ List.replicate (5 - bits.length) false)
  rwa [length_take_append_replicate] at back

theorem takeGroup_lt (bits : List Bool) : takeGroup bits < 32 := by
  calc takeGroup bits
      < 2 ^ (bits.take 5 ++ List.replicate (5 - bits.length) false).length := ofBits_lt _
    _ = 2 ^ 5 := by rw [length_take_append_replicate]

/-- Each group of five bits is below 32. -/
theorem lt_of_mem_groupsOfBits {bits : List Bool} : ∀ group ∈ groupsOfBits bits, group < 32 := by
  fun_induction groupsOfBits bits with
  | case1 => exact nofun
  | case2 bit rest inductionHypothesis =>
      exact List.forall_mem_cons.mpr ⟨takeGroup_lt _, inductionHypothesis⟩

/-- The bits of the groups of a list are the list, filled up with fewer than five zeros. -/
theorem flatMap_groupsOfBits (bits : List Bool) :
    ∃ padding < 5, (groupsOfBits bits).flatMap (bitsOf 5) =
      bits ++ List.replicate padding false := by
  fun_induction groupsOfBits bits with
  | case1 => exact ⟨0, by decide, rfl⟩
  | case2 bit rest inductionHypothesis =>
      rw [List.flatMap_cons, bitsOf_takeGroup]
      rcases Nat.lt_or_ge (bit :: rest).length 5 with short | long
      · rw [List.drop_eq_nil_of_le (Nat.le_of_lt short), groupsOfBits,
          List.take_of_length_le (Nat.le_of_lt short), List.flatMap_nil, List.append_nil]
        refine ⟨_, ?_, rfl⟩
        rw [List.length_cons]
        omega
      · obtain ⟨padding, few, groups⟩ := inductionHypothesis
        refine ⟨padding, few, ?_⟩
        rw [groups, Nat.sub_eq_zero_of_le long, List.replicate_zero, List.append_nil,
          ← List.append_assoc, List.take_append_drop]

/-- Whole bytes are taken from their bits, up to fewer than eight that stand behind them. -/
theorem bytesOfBits_flatMap_append
    (bytes : Bytes)
    {left : List Bool}
    (few : left.length < 8) :
    bytesOfBits ((bytes.flatMap fun byte => bitsOf 8 byte.toNat) ++ left) = (bytes, left) := by
  induction bytes with
  | nil =>
      rw [bytesOfBits]
      exact dif_pos few
  | cons byte bytes inductionHypothesis =>
      have sized := length_bitsOf 8 byte.toNat
      rw [List.flatMap_cons, List.append_assoc, bytesOfBits, dif_neg, List.drop_left' sized,
        List.take_left' sized, inductionHypothesis, ofBits_bitsOf byte.toNat_lt,
        UInt8.ofNat_toNat]
      rw [List.length_append, sized]
      omega

/-- A byte string comes back from its groups. -/
theorem ofGroups_toGroups (bytes : Bytes) : ofGroups (toGroups bytes) = .ok bytes := by
  obtain ⟨padding, few, groups⟩ :=
    flatMap_groupsOfBits (bytes.flatMap fun byte => bitsOf 8 byte.toNat)
  have left : (List.replicate padding false).length = padding := List.length_replicate
  have short : (List.replicate padding false).length < 8 := by omega
  have regrouped := bytesOfBits_flatMap_append bytes short
  rw [ofGroups, toGroups, groups, regrouped]
  refine if_neg ?_
  rintro (many | marked)
  · exact absurd many (by omega)
  · rw [List.any_eq_true] at marked
    obtain ⟨bit, present, set⟩ := marked
    rw [List.eq_of_mem_replicate present] at set
    cases set

/-! ## Checksum -/

/-- Adds a word of the generator for a bit that is set. -/
def addWord (value : Nat) (entry : Nat × Bool) : Nat :=
  if entry.2 then value ^^^ entry.1 else value

/-- What the bits carried out of a remainder come to. -/
def reduction (carried : Nat) : Nat :=
  (generator.zip (bitsOf 5 carried).reverse).foldl addWord 0

/-- Adding words goes through sums of bits. -/
theorem foldl_addWord_xor
    (words : List (Nat × Bool))
    (first second : Nat) :
    words.foldl addWord (first ^^^ second) = first ^^^ words.foldl addWord second := by
  induction words generalizing second with
  | nil => rfl
  | cons entry words inductionHypothesis =>
      have moved : addWord (first ^^^ second) entry = first ^^^ addWord second entry := by
        rw [addWord, addWord]
        split
        · exact Nat.xor_assoc first second entry.1
        · rfl
      rw [List.foldl_cons, List.foldl_cons, moved, inductionHypothesis]

/-- The bits carried out of a remainder are added to it in another form. -/
theorem remainderStep_eq (remainder group : Nat) :
    remainderStep remainder group =
      remainder % 2 ^ 25 * 32 ^^^ group ^^^ reduction (remainder / 2 ^ 25) := by
  rw [reduction, ← foldl_addWord_xor, Nat.xor_zero]
  rfl

/-- The reduction of a sum of bits is the sum of the reductions. -/
theorem reduction_xor
    {first second : Nat}
    (small : first < 32)
    (smallToo : second < 32) :
    reduction (first ^^^ second) = reduction first ^^^ reduction second := by
  have each : ∀ first second : Fin 32,
      reduction (first.val ^^^ second.val) = reduction first ^^^ reduction second := by
    decide +kernel
  exact each ⟨first, small⟩ ⟨second, smallToo⟩

theorem reduction_lt
    {carried : Nat}
    (small : carried < 32) :
    reduction carried < 2 ^ 30 := by
  have each : ∀ carried : Fin 32, reduction carried < 2 ^ 30 := by decide +kernel
  exact each ⟨carried, small⟩

/-- A remainder keeps to 30 bits from step to step. -/
theorem remainderStep_lt
    {remainder group : Nat}
    (small : remainder < 2 ^ 30)
    (smallGroup : group < 32) :
    remainderStep remainder group < 2 ^ 30 := by
  have carried : remainder / 2 ^ 25 < 32 := by omega
  rw [remainderStep_eq]
  exact Nat.xor_lt_two_pow (Nat.xor_lt_two_pow (by omega) (by omega)) (reduction_lt carried)

/-- A step is linear. -/
theorem remainderStep_xor
    {first second : Nat}
    (small : first < 2 ^ 30)
    (smallToo : second < 2 ^ 30)
    (group other : Nat) :
    remainderStep (first ^^^ second) (group ^^^ other) =
      remainderStep first group ^^^ remainderStep second other := by
  have shifted : (first % 2 ^ 25 ^^^ second % 2 ^ 25) * 32 =
      first % 2 ^ 25 * 32 ^^^ second % 2 ^ 25 * 32 := by
    have distributed : (first % 2 ^ 25 ^^^ second % 2 ^ 25) <<< 5 =
        (first % 2 ^ 25) <<< 5 ^^^ (second % 2 ^ 25) <<< 5 :=
      Nat.shiftLeft_xor_distrib
    simpa only [Nat.shiftLeft_eq] using distributed
  have carriedFirst : first / 2 ^ 25 < 32 := by omega
  have carriedSecond : second / 2 ^ 25 < 32 := by omega
  rw [remainderStep_eq, remainderStep_eq, remainderStep_eq, Nat.xor_mod_two_pow,
    Nat.xor_div_two_pow, shifted, reduction_xor carriedFirst carriedSecond]
  ac_rfl

/-- Without a carry the group becomes the last digit of the remainder. -/
theorem remainderStep_eq_add
    {remainder group : Nat}
    (small : remainder < 2 ^ 25)
    (smallGroup : group < 32) :
    remainderStep remainder group = 32 * remainder + group := by
  have noCarry : remainder / 2 ^ 25 = 0 := Nat.div_eq_of_lt small
  have high : (32 * remainder ^^^ group) / 2 ^ 5 = remainder := by
    rw [Nat.xor_div_two_pow, Nat.mul_div_cancel_left _ (by decide), Nat.div_eq_of_lt smallGroup,
      Nat.xor_zero]
  have low : (32 * remainder ^^^ group) % 2 ^ 5 = group := by
    rw [Nat.xor_mod_two_pow, Nat.mul_mod_right, Nat.mod_eq_of_lt smallGroup, Nat.zero_xor]
  rw [remainderStep_eq, noCarry, Nat.mod_eq_of_lt small, Nat.mul_comm]
  calc 32 * remainder ^^^ group ^^^ 0
    _ = 32 * remainder ^^^ group := Nat.xor_zero _
    _ = 32 * remainder + group := by omega

/-- A remainder keeps to 30 bits. -/
theorem foldl_remainderStep_lt
    {remainder : Nat}
    {groups : List Nat}
    (small : remainder < 2 ^ 30)
    (smallGroups : ∀ group ∈ groups, group < 32) :
    groups.foldl remainderStep remainder < 2 ^ 30 := by
  induction groups generalizing remainder with
  | nil => exact small
  | cons group groups inductionHypothesis =>
      obtain ⟨smallGroup, smallRest⟩ := List.forall_mem_cons.mp smallGroups
      exact inductionHypothesis (remainderStep_lt small smallGroup) smallRest

/-- A remainder goes on as with zeros for the groups, with the remainder of the groups added. -/
theorem foldl_remainderStep_xor
    {first second : Nat}
    {groups : List Nat}
    (small : first < 2 ^ 30)
    (smallToo : second < 2 ^ 30)
    (smallGroups : ∀ group ∈ groups, group < 32) :
    groups.foldl remainderStep (first ^^^ second) =
      (List.replicate groups.length 0).foldl remainderStep first ^^^
        groups.foldl remainderStep second := by
  induction groups generalizing first second with
  | nil => rfl
  | cons group groups inductionHypothesis =>
      obtain ⟨smallGroup, smallRest⟩ := List.forall_mem_cons.mp smallGroups
      have step := remainderStep_xor small smallToo 0 group
      rw [Nat.zero_xor] at step
      rw [List.foldl_cons, step, List.length_cons, List.replicate_succ, List.foldl_cons,
        List.foldl_cons]
      exact inductionHypothesis (remainderStep_lt small (by decide))
        (remainderStep_lt smallToo smallGroup) smallRest

/-- The six groups of a number below `2 ^ 30`. -/
def groupsOf (value : Nat) : List Nat :=
  (List.range checksumLength).map fun index => value / Nat.pow 2 (5 * (5 - index)) % 32

theorem length_groupsOf (value : Nat) : (groupsOf value).length = checksumLength := by
  rw [groupsOf, List.length_map, List.length_range]

theorem lt_of_mem_groupsOf {value : Nat} : ∀ group ∈ groupsOf value, group < 32 := by
  intro group present
  obtain ⟨index, -, rfl⟩ := List.mem_map.mp present
  exact Nat.mod_lt _ (by decide)

/-- The remainder of the groups of a number is the number. -/
theorem foldl_groupsOf
    {value : Nat}
    (small : value < 2 ^ 30) :
    (groupsOf value).foldl remainderStep 0 = value := by
  -- After some of the groups it is what stands in front of the others.
  have front : ∀ count ≤ checksumLength,
      ((List.range count).map fun index => value / Nat.pow 2 (5 * (5 - index)) % 32).foldl
        remainderStep 0 = value / 2 ^ (5 * (checksumLength - count)) := by
    intro count
    induction count with
    | zero => exact fun _ => (Nat.div_eq_of_lt small).symm
    | succ count inductionHypothesis =>
        intro within
        have split : 2 ^ (5 * (checksumLength - count)) = 2 ^ (5 * (5 - count)) * 32 := by
          rw [show checksumLength - count = 5 - count + 1 by rw [checksumLength] at *; omega,
            Nat.mul_succ, Nat.pow_add]
        have same : checksumLength - (count + 1) = 5 - count := by
          rw [checksumLength]
          omega
        rw [List.range_succ, List.map_append, List.foldl_append,
          inductionHypothesis (Nat.le_of_succ_le within), split, ← Nat.div_div_eq_div_mul, same]
        change remainderStep (value / 2 ^ (5 * (5 - count)) / 32)
          (value / 2 ^ (5 * (5 - count)) % 32) = _
        have bound : value / 2 ^ (5 * (5 - count)) < 2 ^ 30 :=
          Nat.lt_of_le_of_lt (Nat.div_le_self _ _) small
        rw [remainderStep_eq_add (by omega) (Nat.mod_lt _ (by decide)), Nat.div_add_mod]
  have whole := front checksumLength (Nat.le_refl _)
  rwa [Nat.sub_self, Nat.mul_zero, Nat.pow_zero, Nat.div_one] at whole

/-- Groups with their checksum behind them belong to the plain variant. -/
theorem checksumHolds_append_checksum
    {readable : List Char}
    {groups : List Nat}
    (smallReadable : ∀ group ∈ expandReadable readable, group < 32)
    (smallGroups : ∀ group ∈ groups, group < 32) :
    checksumHolds readable (groups ++ checksum readable groups) := by
  have smallAll : ∀ group ∈ expandReadable readable ++ groups, group < 32 :=
    List.forall_mem_append.mpr ⟨smallReadable, smallGroups⟩
  let before := remainder (expandReadable readable ++ groups)
  have smallBefore : before < 2 ^ 30 := foldl_remainderStep_lt (by decide) smallAll
  let padded := (List.replicate checksumLength 0).foldl remainderStep before
  have smallPadded : padded < 2 ^ 30 :=
    foldl_remainderStep_lt smallBefore fun group present => by
      rw [List.eq_of_mem_replicate present]
      decide
  have written : checksum readable groups = groupsOf (padded ^^^ plainRemainder) := by
    change groupsOf (remainder _ ^^^ plainRemainder) = _
    rw [remainder, List.foldl_append]
    rfl
  have whole : remainder (expandReadable readable ++ (groups ++ checksum readable groups)) =
      plainRemainder :=
    calc remainder (expandReadable readable ++ (groups ++ checksum readable groups))
      _ = (groupsOf (padded ^^^ plainRemainder)).foldl remainderStep before := by
          rw [← List.append_assoc, remainder, List.foldl_append, written]
          rfl
      _ = padded ^^^ (groupsOf (padded ^^^ plainRemainder)).foldl remainderStep 0 := by
          have linear := foldl_remainderStep_xor smallBefore (Nat.two_pow_pos 30)
            (@lt_of_mem_groupsOf (padded ^^^ plainRemainder))
          rwa [Nat.xor_zero, length_groupsOf] at linear
      _ = padded ^^^ (padded ^^^ plainRemainder) := by
          rw [foldl_groupsOf (Nat.xor_lt_two_pow smallPadded (by decide))]
      _ = plainRemainder := by rw [← Nat.xor_assoc, Nat.xor_self, Nat.zero_xor]
  rw [checksumHolds, whole]
  rfl

/-! ## Readable parts -/

/-- A character that can stand in a readable part. -/
def Visible (c : Char) : Prop :=
  33 ≤ c.toNat ∧ c.toNat ≤ 126

instance : DecidablePred Visible :=
  fun c => inferInstanceAs (Decidable (33 ≤ c.toNat ∧ c.toNat ≤ 126))

/-- A readable part that is admitted: at most 83 visible characters, in one letter case. -/
structure Admitted (readable : List Char) : Prop where
  nonempty : readable ≠ []
  short : readable.length ≤ maxReadableLength
  visible : ∀ c ∈ readable, Visible c
  oneCase : (∀ c ∈ readable, c.isLower = false) ∨ ∀ c ∈ readable, c.isUpper = false

theorem Visible.ascii
    {c : Char}
    (visible : Visible c) :
    c.toNat < 128 := by
  have bound := visible.2
  omega

theorem Visible.isBlank
    {c : Char}
    (visible : Visible c) :
    Text.isBlank c = false :=
  Text.isBlank_eq_false visible.1 (Nat.lt_succ_of_le visible.2)

/-- What a character is in lower case: visible if it was, no capital letter, and the same when taken
in lower case again. -/
theorem Visible.toLower
    {c : Char}
    (visible : Visible c) :
    Visible c.toLower ∧ c.toLower.isUpper = false ∧ c.toLower.toLower = c.toLower := by
  have each : ∀ code : Fin 128, Visible (Char.ofNat code) →
      Visible (Char.ofNat code).toLower ∧ (Char.ofNat code).toLower.isUpper = false ∧
        (Char.ofNat code).toLower.toLower = (Char.ofNat code).toLower := by
    decide
  have found := each ⟨c.toNat, visible.ascii⟩
  rw [Char.ofNat_toNat] at found
  exact found visible

theorem Visible.isUpper_eq_false
    {c : Char}
    (visible : Visible c)
    (lower : c.isLower) :
    c.isUpper = false := by
  have each : ∀ code : Fin 128, (Char.ofNat code).isLower → (Char.ofNat code).isUpper = false := by
    decide
  have found := each ⟨c.toNat, visible.ascii⟩
  rw [Char.ofNat_toNat] at found
  exact found lower

/-- A readable part in lower case stays as it is. -/
theorem lowerReadable_lowerReadable
    {readable : List Char}
    (visible : ∀ c ∈ readable, Visible c) :
    lowerReadable (lowerReadable readable) = lowerReadable readable := by
  rw [lowerReadable, lowerReadable, List.map_map]
  exact List.map_congr_left fun c present => (visible c present).toLower.2.2

/-- A readable part stays visible in lower case. -/
theorem visible_lowerReadable
    {readable : List Char}
    (visible : ∀ c ∈ readable, Visible c) :
    ∀ c ∈ lowerReadable readable, Visible c := by
  intro c present
  obtain ⟨original, inReadable, rfl⟩ := List.mem_map.mp present
  exact (visible original inReadable).toLower.1

/-- Visible characters are one byte each. -/
theorem length_flatMap_utf8EncodeChar
    {chars : List Char}
    (visible : ∀ c ∈ chars, Visible c) :
    (chars.flatMap String.utf8EncodeChar).length = chars.length := by
  induction chars with
  | nil => rfl
  | cons c chars inductionHypothesis =>
      obtain ⟨visibleFirst, visibleRest⟩ := List.forall_mem_cons.mp visible
      rw [List.flatMap_cons, utf8EncodeChar_of_ascii visibleFirst.ascii, List.singleton_append,
        List.length_cons, inductionHypothesis visibleRest, List.length_cons]

/-- The case of a readable part goes on behind a visible character. -/
theorem readableCase_cons
    {seen : Case}
    {c : Char}
    {rest : Bytes}
    (visible : Visible c) :
    readableCase seen (String.utf8EncodeChar c ++ rest) =
      if c.isLower then
        if seen = .upper then .error .mixedCase else readableCase .lower rest
      else if c.isUpper then
        if seen = .lower then .error .mixedCase else readableCase .upper rest
      else readableCase seen rest := by
  have byte : (UInt8.ofNat c.toNat).toNat = c.toNat :=
    UInt8.toNat_ofNat_of_lt' (Nat.lt_trans visible.ascii (by decide))
  have inside : ¬ (UInt8.ofNat c.toNat < 33 ∨ 126 < UInt8.ofNat c.toNat) := by
    rw [UInt8.lt_iff_toNat_lt, UInt8.lt_iff_toNat_lt, byte]
    exact not_or.mpr ⟨Nat.not_lt.mpr visible.1, Nat.not_lt.mpr visible.2⟩
  rw [utf8EncodeChar_of_ascii visible.ascii, List.singleton_append, readableCase]
  rw [if_neg inside, byte, Char.ofNat_toNat]

/-- Any other character is refused. -/
theorem exists_readableCase_eq_error
    {seen : Case}
    {c : Char}
    {rest : Bytes}
    (hidden : ¬ Visible c) :
    ∃ cause, readableCase seen (String.utf8EncodeChar c ++ rest) = .error cause := by
  cases encoded : String.utf8EncodeChar c with
  | nil => exact absurd encoded String.utf8EncodeChar_ne_nil
  | cons byte others =>
      rw [List.cons_append, readableCase]
      refine ⟨_, if_pos ?_⟩
      by_contra inside
      rw [UInt8.lt_iff_toNat_lt, UInt8.lt_iff_toNat_lt, not_or, Nat.not_lt, Nat.not_lt] at inside
      have present : byte ∈ String.utf8EncodeChar c := encoded ▸ List.mem_cons_self
      have low : byte < 0x80 := by
        rw [UInt8.lt_iff_toNat_lt]
        exact Nat.lt_of_le_of_lt inside.2 (by decide)
      have ascii := toNat_lt_of_mem_utf8EncodeChar present low
      rw [utf8EncodeChar_of_ascii ascii, List.mem_singleton] at present
      have same : byte.toNat = c.toNat := by
        rw [present]
        exact UInt8.toNat_ofNat_of_lt' (Nat.lt_trans ascii (by decide))
      rw [same] at inside
      exact hidden inside

/-- A readable part has a case if its characters are visible and not in two cases, those seen before
included. -/
theorem exists_readableCase_eq_ok_iff
    {seen : Case}
    {chars : List Char} :
    (∃ found, readableCase seen (chars.flatMap String.utf8EncodeChar) = .ok found) ↔
      (∀ c ∈ chars, Visible c) ∧
        ((seen ≠ .lower ∧ ∀ c ∈ chars, c.isLower = false) ∨
          (seen ≠ .upper ∧ ∀ c ∈ chars, c.isUpper = false)) := by
  induction chars generalizing seen with
  | nil => cases seen <;> simp [readableCase]
  | cons c chars inductionHypothesis =>
      rw [List.flatMap_cons]
      by_cases visible : Visible c
      · rw [readableCase_cons visible]
        cases lower : c.isLower with
        | true =>
            have notUpper := visible.isUpper_eq_false lower
            by_cases upperSeen : seen = .upper
            · simp [upperSeen, lower]
            · simp [upperSeen, lower, notUpper, visible, inductionHypothesis]
        | false =>
            cases upper : c.isUpper with
            | true =>
                by_cases lowerSeen : seen = .lower
                · simp [lowerSeen, upper]
                · simp [lowerSeen, lower, upper, visible, inductionHypothesis]
            | false => simp [lower, upper, visible, inductionHypothesis]
      · obtain ⟨cause, refused⟩ := @exists_readableCase_eq_error seen c
          (chars.flatMap String.utf8EncodeChar) visible
        simp [refused, visible]

/-- A readable part is accepted if it is admitted. -/
theorem exists_checkReadable_eq_ok_iff {readable : List Char} :
    (∃ found, checkReadable readable = .ok found) ↔ Admitted readable := by
  rw [checkReadable, Bytes.ofText_ofList]
  constructor
  · rintro ⟨found, checked⟩
    split at checked
    · cases checked
    · next sized =>
      obtain ⟨visible, cases⟩ := exists_readableCase_eq_ok_iff.mp ⟨found, checked⟩
      rw [length_flatMap_utf8EncodeChar visible, not_or, Nat.not_lt] at sized
      refine ⟨?_, sized.2, visible, cases.imp And.right And.right⟩
      rintro rfl
      exact sized.1 rfl
  · rintro ⟨nonempty, short, visible, oneCase⟩
    have sized := length_flatMap_utf8EncodeChar visible
    have accepted : ¬ ((readable.flatMap String.utf8EncodeChar).isEmpty ∨
        maxReadableLength < (readable.flatMap String.utf8EncodeChar).length) := by
      rw [List.isEmpty_iff_length_eq_zero, sized, List.length_eq_zero_iff]
      exact not_or.mpr ⟨nonempty, Nat.not_lt.mpr short⟩
    rw [if_neg accepted]
    exact exists_readableCase_eq_ok_iff.mpr ⟨visible,
      oneCase.imp (fun noLower => ⟨nofun, noLower⟩) fun noUpper => ⟨nofun, noUpper⟩⟩

/-- Without capital letters the case is not the upper one. -/
theorem ne_upper_of_readableCase
    {seen found : Case}
    {chars : List Char}
    (visible : ∀ c ∈ chars, Visible c)
    (noUpper : ∀ c ∈ chars, c.isUpper = false)
    (notUpper : seen ≠ .upper)
    (checked : readableCase seen (chars.flatMap String.utf8EncodeChar) = .ok found) :
    found ≠ .upper := by
  induction chars generalizing seen with
  | nil => exact Except.ok.inj checked ▸ notUpper
  | cons c chars inductionHypothesis =>
      obtain ⟨visibleFirst, visibleRest⟩ := List.forall_mem_cons.mp visible
      obtain ⟨noUpperFirst, noUpperRest⟩ := List.forall_mem_cons.mp noUpper
      rw [List.flatMap_cons, readableCase_cons visibleFirst, noUpperFirst, if_neg notUpper,
        if_neg Bool.false_ne_true] at checked
      split at checked
      · exact inductionHypothesis visibleRest noUpperRest Case.noConfusion checked
      · exact inductionHypothesis visibleRest noUpperRest notUpper checked

/-- In lower case an admitted readable part is accepted. -/
theorem Admitted.exists_checkReadable_lower
    {readable : List Char}
    (admitted : Admitted readable) :
    ∃ found, found ≠ .upper ∧ checkReadable (lowerReadable readable) = .ok found := by
  have visible := visible_lowerReadable admitted.visible
  have noUpper : ∀ c ∈ lowerReadable readable, c.isUpper = false := by
    intro c present
    obtain ⟨original, inReadable, rfl⟩ := List.mem_map.mp present
    exact (admitted.visible original inReadable).toLower.2.1
  have lowered : Admitted (lowerReadable readable) :=
    { nonempty := List.map_eq_nil_iff.not.mpr admitted.nonempty
      short := by
        rw [lowerReadable, List.length_map]
        exact admitted.short
      visible := visible
      oneCase := .inr noUpper }
  obtain ⟨found, checked⟩ := exists_checkReadable_eq_ok_iff.mpr lowered
  refine ⟨found, ?_, checked⟩
  rw [checkReadable, Bytes.ofText_ofList] at checked
  split at checked
  · cases checked
  · exact ne_upper_of_readableCase visible noUpper Case.noConfusion checked

/-- The groups of a readable part are below 32. -/
theorem lt_of_mem_expandReadable
    {readable : List Char}
    (visible : ∀ c ∈ readable, Visible c) :
    ∀ group ∈ expandReadable readable, group < 32 := by
  intro group present
  rcases List.mem_append.mp present with high | low
  · obtain ⟨c, inReadable, rfl⟩ := List.mem_map.mp high
    have ascii := (visible c inReadable).ascii
    omega
  · rcases List.mem_cons.mp low with rfl | low
    · decide
    · obtain ⟨c, -, rfl⟩ := List.mem_map.mp low
      exact Nat.mod_lt _ (by decide)

/-! ## Texts -/

/-- What holds for the character of each group holds for those of a list of groups. -/
theorem forall_mem_map_groupChar
    {holds : Char → Prop}
    (each : ∀ group : Fin 32, holds (groupChar group))
    {groups : List Nat}
    (small : ∀ group ∈ groups, group < 32) :
    ∀ c ∈ groups.map groupChar, holds c := by
  intro c present
  obtain ⟨group, inGroups, rfl⟩ := List.mem_map.mp present
  exact each ⟨group, small group inGroups⟩

/-- Groups are read from their characters unless capital letters were seen. -/
theorem readGroups_map_groupChar
    {seen : Case}
    {groups : List Nat}
    (small : ∀ group ∈ groups, group < 32)
    (notUpper : seen ≠ .upper) :
    readGroups seen (groups.map groupChar) = .ok groups := by
  have each : ∀ group : Fin 32, (groupChar group).toNat < 128 ∧
      (groupChar group).isUpper = false ∧ groupValue? (groupChar group) = some group.val := by
    decide
  induction groups generalizing seen with
  | nil => rfl
  | cons group groups inductionHypothesis =>
      obtain ⟨smallFirst, smallRest⟩ := List.forall_mem_cons.mp small
      obtain ⟨ascii, noCapital, value⟩ := each ⟨group, smallFirst⟩
      have oneCase : ¬ ((groupChar group).isLower ∧ seen = .upper ∨
          (groupChar group).isUpper ∧ seen = .lower) := by
        simp [notUpper, noCapital]
      rw [List.map_cons, readGroups, if_neg (Nat.not_le.mpr ascii), if_neg oneCase, value]
      dsimp only
      have next : (if (groupChar group).isLower then .lower
          else if (groupChar group).isUpper then .upper else seen) ≠ Case.upper := by
        rw [noCapital]
        split
        · exact nofun
        · exact notUpper
      rw [inductionHypothesis smallRest next]
      rfl

/-- A text is split at the last `1`. -/
theorem splitSeparator?_append
    {readable data : List Char}
    (plain : ∀ c ∈ data, c ≠ '1') :
    splitSeparator? (readable ++ '1' :: data) = some (readable, data) := by
  have reversed : (readable ++ '1' :: data).reverse = data.reverse ++ '1' :: readable.reverse := by
    simp
  have behind : (data.reverse ++ '1' :: readable.reverse).takeWhile (· ≠ '1') = data.reverse :=
    Text.takeWhile_run (by simpa using plain) (by simp)
  rw [splitSeparator?, reversed, behind, List.drop_left]
  simp

variable
  {readable chars : List Char}
  {groups : List Nat}

/-- A text is the readable part in lower case, the separator, the groups and their checksum. -/
theorem encode_eq_ok_iff :
    encode readable groups = .ok chars ↔
      Admitted readable ∧
        chars = lowerReadable readable ++
          '1' :: (groups ++ checksum (lowerReadable readable) groups).map groupChar := by
  rw [encode, bind_eq_ok_iff, ← exists_checkReadable_eq_ok_iff]
  constructor
  · rintro ⟨found, checked, written⟩
    exact ⟨⟨found, checked⟩, (Except.ok.inj written).symm⟩
  · rintro ⟨⟨found, checked⟩, rfl⟩
    exact ⟨found, checked, rfl⟩

/-- The groups of a text are below 32, those of the checksum included. -/
theorem lt_of_mem_append_checksum
    (small : ∀ group ∈ groups, group < 32) :
    ∀ group ∈ groups ++ checksum readable groups, group < 32 :=
  List.forall_mem_append.mpr ⟨small, lt_of_mem_groupsOf⟩

/-- Every character of a text is visible. -/
theorem visible_of_encode
    (small : ∀ group ∈ groups, group < 32)
    (encoded : encode readable groups = .ok chars) :
    ∀ c ∈ chars, Visible c := by
  obtain ⟨admitted, rfl⟩ := encode_eq_ok_iff.mp encoded
  have each : ∀ group : Fin 32, Visible (groupChar group) := by decide
  refine List.forall_mem_append.mpr ⟨visible_lowerReadable admitted.visible, ?_⟩
  refine List.forall_mem_cons.mpr ⟨by decide, ?_⟩
  exact forall_mem_map_groupChar each (lt_of_mem_append_checksum small)

/-- The readable part in lower case and the groups are read back from their text. -/
theorem decode_of_encode
    (small : ∀ group ∈ groups, group < 32)
    (encoded : encode readable groups = .ok chars) :
    decode chars = .ok (lowerReadable readable, groups) := by
  obtain ⟨admitted, rfl⟩ := encode_eq_ok_iff.mp encoded
  have smallAll := @lt_of_mem_append_checksum (lowerReadable readable) groups small
  have noSeparator := @forall_mem_map_groupChar (· ≠ '1') (by decide) _ smallAll
  obtain ⟨seen, notUpper, checked⟩ := admitted.exists_checkReadable_lower
  have sized : (groups ++ checksum (lowerReadable readable) groups).length =
      groups.length + checksumLength := by
    rw [List.length_append]
    exact congrArg (groups.length + ·) (length_groupsOf _)
  have holds := checksumHolds_append_checksum
    (lt_of_mem_expandReadable (visible_lowerReadable admitted.visible)) small
  rw [decode, splitSeparator?_append noSeparator]
  dsimp only
  rw [checked, lowerReadable_lowerReadable admitted.visible]
  refine bind_eq_ok_iff.mpr ⟨seen, rfl, ?_⟩
  refine bind_eq_ok_iff.mpr ⟨_, readGroups_map_groupChar smallAll notUpper, ?_⟩
  rw [holds, if_neg (by omega), if_neg (by decide), List.take_left' (by omega)]
  rfl

end Bech32
end Valset
