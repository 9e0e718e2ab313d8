import Mathlib.Data.List.TakeWhile
import Mathlib.Data.Nat.Digits.Lemmas
import Valset.Id.Cb58
import Valset.Proofs.Bytes
import Valset.Proofs.Except
import Valset.Proofs.Text.Runs

/-!
# Byte strings and their cb58 texts

Base58 changes the base of a string of digits and keeps the zeros at its front. Such a change is
undone by the change back, for every pair of bases. A byte string therefore has one text, and a
checksum behind the payload only narrows down which texts are read.
-/

namespace Valset
namespace Base58

/-! ## Digits of numbers -/

theorem digitsOf_eq_digits
    {base : Nat}
    (proper : 1 < base)
    (value : Nat) :
    digitsOf base value = Nat.digits base value := by
  induction value using Nat.strongRecOn with
  | ind value inductionHypothesis =>
      rw [digitsOf]
      split
      · next stop =>
        obtain rfl : value = 0 := by omega
        rw [Nat.digits_zero]
      · next goOn =>
        have positive : 0 < value := by omega
        rw [inductionHypothesis _ (Nat.div_lt_self positive proper),
          Nat.digits_def' proper positive]

theorem ofDigits_eq_ofDigits
    (base : Nat)
    (digits : List Nat) :
    ofDigits base digits = Nat.ofDigits base digits := by
  induction digits with
  | nil => rfl
  | cons first rest inductionHypothesis =>
      rw [ofDigits, Nat.ofDigits_cons, inductionHypothesis]

/-- The number of a byte string has the bytes as its digits. -/
theorem toNat_eq_ofDigits (bytes : Bytes) :
    Bytes.toNat bytes = Nat.ofDigits 256 (bytes.map (·.toNat)).reverse := by
  induction bytes using List.reverseRecOn with
  | nil => rfl
  | append_singleton bytes byte inductionHypothesis =>
      rw [Bytes.toNat_concat, inductionHypothesis, List.map_append, List.map_singleton,
        List.reverse_append, List.reverse_singleton, List.singleton_append, Nat.ofDigits_cons,
        Nat.add_comm, Nat.mul_comm]

/-! ## Changes of base -/

/-- A string of digits, most significant first, in another base. Each zero at its front stays a
digit of its own. -/
def rebase (source target : Nat) (digits : List Nat) : List Nat :=
  digits.takeWhile (· == 0) ++ (Nat.digits target (Nat.ofDigits source digits.reverse)).reverse

/-- Zeros at the front do not count. -/
theorem ofDigits_reverse_zeros_append
    (base : Nat)
    {zeros : List Nat}
    (allZero : ∀ digit ∈ zeros, digit = 0)
    (digits : List Nat) :
    Nat.ofDigits base (zeros ++ digits).reverse = Nat.ofDigits base digits.reverse := by
  rw [List.reverse_append, List.eq_replicate_iff.mpr ⟨rfl, allZero⟩, List.reverse_replicate,
    Nat.ofDigits_append_replicate_zero]

/-- A string whose first digit is not zero has the digits of its number. -/
theorem digits_ofDigits_reverse
    {base : Nat}
    (proper : 1 < base)
    {digits : List Nat}
    (small : ∀ digit ∈ digits, digit < base)
    (led : ∀ digit ∈ digits.head?, digit ≠ 0) :
    (Nat.digits base (Nat.ofDigits base digits.reverse)).reverse = digits := by
  rw [Nat.digits_ofDigits base proper, List.reverse_reverse]
  · exact fun digit present => small digit (List.mem_reverse.mp present)
  · intro nonempty
    rw [List.getLast_reverse]
    exact led _ (List.head?_eq_some_head _)

/-- The digits of a number do not begin with zero. -/
theorem head?_reverse_digits_ne_zero
    (base value : Nat) :
    ∀ digit ∈ (Nat.digits base value).reverse.head?, digit ≠ 0 := by
  intro digit first
  rw [List.head?_reverse] at first
  obtain ⟨nonempty, rfl⟩ := List.mem_getLast?_eq_getLast first
  have positive : value ≠ 0 := by
    rintro rfl
    simp at nonempty
  exact Nat.getLast_digit_ne_zero base positive

/-- The zeros at the front end where another digit stands. -/
theorem takeWhile_zeros_append
    {zeros digits : List Nat}
    (allZero : ∀ digit ∈ zeros, digit = 0)
    (led : ∀ digit ∈ digits.head?, digit ≠ 0) :
    (zeros ++ digits).takeWhile (· == 0) = zeros :=
  Text.takeWhile_run (by simpa using allZero) (by simpa using led)

/-- A change of base is undone by the change back. -/
theorem rebase_rebase
    {source target : Nat}
    (properSource : 1 < source)
    {digits : List Nat}
    (small : ∀ digit ∈ digits, digit < source) :
    rebase target source (rebase source target digits) = digits := by
  obtain ⟨zeros, rest, rfl, allZero, led⟩ : ∃ zeros rest, digits = zeros ++ rest ∧
      (∀ digit ∈ zeros, digit = 0) ∧ ∀ digit ∈ rest.head?, digit ≠ 0 := by
    refine ⟨digits.takeWhile (· == 0), digits.dropWhile (· == 0),
      List.takeWhile_append_dropWhile.symm, ?_, ?_⟩
    · intro digit present
      simpa using List.mem_takeWhile_imp present
    · intro digit first
      have stopped := List.head?_dropWhile_not (· == 0) digits
      rw [Option.mem_def.mp first] at stopped
      simpa using stopped
  have changed : rebase source target (zeros ++ rest) =
      zeros ++ (Nat.digits target (Nat.ofDigits source rest.reverse)).reverse := by
    rw [rebase, takeWhile_zeros_append allZero led, ofDigits_reverse_zeros_append source allZero]
  rw [changed, rebase, takeWhile_zeros_append allZero (head?_reverse_digits_ne_zero _ _),
    ofDigits_reverse_zeros_append target allZero, List.reverse_reverse, Nat.ofDigits_digits,
    digits_ofDigits_reverse properSource _ led]
  exact fun digit present => small digit (List.mem_append_right zeros present)

theorem rebase_lt
    {source target : Nat}
    (proper : 1 < target)
    {digits : List Nat} :
    ∀ digit ∈ rebase source target digits, digit < target := by
  intro digit present
  rcases List.mem_append.mp present with inFront | behind
  · have zero : digit = 0 := by simpa using List.mem_takeWhile_imp inFront
    omega
  · exact Nat.digits_lt_base proper (List.mem_reverse.mp behind)

/-! ## Digits as characters -/

theorem digitValue?_digit
    {value : Nat}
    (small : value < 58) :
    (digit value).toNat < 128 ∧ digitValue? (digit value) = some value := by
  have each : ∀ value : Fin 58,
      (digit value).toNat < 128 ∧ digitValue? (digit value) = some value.val := by
    decide
  exact each ⟨value, small⟩

theorem digit_of_digitValue?
    {c : Char}
    {value : Nat}
    (found : digitValue? c = some value) :
    value < 58 ∧ digit value = c := by
  obtain ⟨inside, same, -⟩ := List.idxOf?_eq_some_iff.mp found
  refine ⟨inside, ?_⟩
  rw [digit, List.getD_eq_getElem?_getD, List.getElem?_eq_getElem inside, Option.getD_some, same]

/-- The values of a text are those of the digits that it is written in. -/
theorem values_eq_ok_iff
    {position : Nat}
    {chars : List Char}
    {digits : List Nat} :
    values position chars = .ok digits ↔
      chars = digits.map digit ∧ ∀ value ∈ digits, value < 58 := by
  induction chars generalizing position digits with
  | nil =>
      rw [values]
      cases digits <;> simp
  | cons c rest inductionHypothesis =>
      rw [values]
      constructor
      · intro read
        split at read
        · cases read
        · split at read
          · next value found =>
            obtain ⟨digits, readRest, rfl⟩ := map_eq_ok_iff.mp read
            obtain ⟨small, rfl⟩ := digit_of_digitValue? found
            obtain ⟨rfl, smallRest⟩ := inductionHypothesis.mp readRest
            exact ⟨rfl, List.forall_mem_cons.mpr ⟨small, smallRest⟩⟩
          · cases read
      · rintro ⟨written, small⟩
        cases digits with
        | nil => cases written
        | cons value digits =>
            obtain ⟨rfl, rfl⟩ := List.cons.inj written
            obtain ⟨smallFirst, smallRest⟩ := List.forall_mem_cons.mp small
            obtain ⟨ascii, found⟩ := digitValue?_digit smallFirst
            rw [if_neg (Nat.not_le.mpr ascii), found]
            exact map_eq_ok_iff.mpr ⟨digits, inductionHypothesis.mpr ⟨rfl, smallRest⟩, rfl⟩

/-! ## Texts -/

/-- The bytes of a byte string as digits. -/
def byteDigits (bytes : Bytes) : List Nat :=
  bytes.map (·.toNat)

theorem byteDigits_lt (bytes : Bytes) : ∀ value ∈ byteDigits bytes, value < 256 := by
  intro value present
  obtain ⟨byte, -, rfl⟩ := List.mem_map.mp present
  exact byte.toNat_lt

theorem map_ofNat_byteDigits (bytes : Bytes) : (byteDigits bytes).map UInt8.ofNat = bytes := by
  rw [byteDigits, List.map_map]
  exact (List.map_congr_left fun _ _ => UInt8.ofNat_toNat).trans (List.map_id bytes)

theorem byteDigits_map_ofNat
    {digits : List Nat}
    (small : ∀ value ∈ digits, value < 256) :
    byteDigits (digits.map UInt8.ofNat) = digits := by
  rw [byteDigits, List.map_map]
  refine (List.map_congr_left fun value present => ?_).trans (List.map_id digits)
  exact UInt8.toNat_ofNat_of_lt' (small value present)

/-- The zero bytes at the front of a byte string are the zeros at the front of its digits. -/
theorem takeWhile_byteDigits (bytes : Bytes) :
    (byteDigits bytes).takeWhile (· == 0) = byteDigits (bytes.takeWhile (· == 0)) := by
  have sameTest : ((· == 0) ∘ fun byte : UInt8 => byte.toNat) = (· == 0) := by
    funext byte
    simp [← UInt8.toNat_inj]
  rw [byteDigits, List.takeWhile_map, sameTest, byteDigits]

/-- A byte string is written in the digits of base 58. -/
theorem encodeChars_eq_rebase (bytes : Bytes) :
    encodeChars bytes = (rebase 256 58 (byteDigits bytes)).map digit := by
  have zeros : (byteDigits (bytes.takeWhile (· == 0))).map digit =
      (bytes.takeWhile (· == 0)).map fun _ => digit 0 := by
    rw [byteDigits, List.map_map]
    refine List.map_congr_left fun byte present => ?_
    obtain rfl : byte = 0 := by simpa using List.mem_takeWhile_imp present
    rfl
  rw [encodeChars, digitsOf_eq_digits (by decide), toNat_eq_ofDigits, rebase, takeWhile_byteDigits,
    List.map_append, zeros]
  rfl

/-- A byte string is read from digits of base 58. -/
theorem decodeChars_eq_rebase (chars : List Char) :
    decodeChars chars =
      (fun digits => (rebase 58 256 digits).map UInt8.ofNat) <$> values 0 chars := by
  cases read : values 0 chars with
  | error cause => rw [decodeChars, read]; rfl
  | ok digits =>
      have zeros : (digits.takeWhile (· == 0)).map UInt8.ofNat =
          (digits.takeWhile (· == 0)).map fun _ => 0 := by
        refine List.map_congr_left fun value present => ?_
        obtain rfl : value = 0 := by simpa using List.mem_takeWhile_imp present
        rfl
      rw [decodeChars, read]
      change Except.ok _ = Except.ok ((rebase 58 256 digits).map UInt8.ofNat)
      rw [digitsOf_eq_digits (by decide), ofDigits_eq_ofDigits, rebase, List.map_append, zeros]

/-- A text is read as a byte string if it is the text of it. -/
theorem decodeChars_eq_ok_iff
    {chars : List Char}
    {bytes : Bytes} :
    decodeChars chars = .ok bytes ↔ chars = encodeChars bytes := by
  rw [decodeChars_eq_rebase, map_eq_ok_iff, encodeChars_eq_rebase]
  constructor
  · rintro ⟨digits, read, rfl⟩
    obtain ⟨rfl, small⟩ := values_eq_ok_iff.mp read
    rw [byteDigits_map_ofNat (rebase_lt (by decide)), rebase_rebase (by decide) small]
  · rintro rfl
    refine ⟨_, values_eq_ok_iff.mpr ⟨rfl, rebase_lt (by decide)⟩, ?_⟩
    rw [rebase_rebase (by decide) (byteDigits_lt bytes), map_ofNat_byteDigits]

end Base58

namespace Cb58

variable
  {text : String}
  {payload : Bytes}

theorem length_checksum (payload : Bytes) : (checksum payload).length = checksumLength := by
  rw [checksum, List.length_drop, FixedBytes.length_bytes]
  rfl

theorem decode_eq_match (text : String) :
    decode text = match Base58.decodeChars text.toList with
      | .error cause => .error (.base58 cause)
      | .ok data =>
        let payload := data.take (data.length - checksumLength)
        if data.length < checksumLength then .error (.length checksumLength data.length)
        else if checksum payload ≠ data.drop (data.length - checksumLength) then .error .checksum
        else .ok payload := by
  rw [decode]
  cases Base58.decodeChars text.toList with
  | error cause => rfl
  | ok data =>
      change (if data.length < checksumLength then _ else _) = _
      dsimp only
      split
      · rfl
      · split
        · rfl
        · rfl

/-- A payload is read from the text of its bytes with their checksum, and from no other text. -/
theorem decode_eq_ok_iff : decode text = .ok payload ↔ text = encode payload := by
  rw [decode_eq_match, encode, ← String.toList_inj, String.toList_ofList,
    ← Base58.decodeChars_eq_ok_iff]
  constructor
  · intro read
    split at read
    · cases read
    · next data decoded =>
      dsimp only at read
      split_ifs at read with short mistyped
      obtain rfl := Except.ok.inj read
      rw [not_not.mp mistyped, List.take_append_drop, decoded]
  · intro decoded
    have size : (payload ++ checksum payload).length - checksumLength = payload.length := by
      rw [List.length_append, length_checksum, Nat.add_sub_cancel]
    rw [decoded]
    dsimp only
    rw [size, List.take_left, List.drop_left, if_neg, if_neg (not_not.mpr rfl)]
    rw [List.length_append, length_checksum]
    exact Nat.not_lt.mpr (Nat.le_add_left _ _)

/-- A payload comes back from its text, zero bytes at its front included. A text that is read is the
text of what is read from it, so that each payload has one text only. -/
theorem reads_what_it_writes :
    (∀ payload, decode (encode payload) = .ok payload) ∧
      (∀ text payload, decode text = .ok payload ↔ encode payload = text) ∧
        ∀ payload, ∃! text, decode text = .ok payload := by
  refine ⟨fun payload => decode_eq_ok_iff.mpr rfl,
    fun text payload => decode_eq_ok_iff.trans eq_comm, fun payload => ?_⟩
  exact ⟨encode payload, decode_eq_ok_iff.mpr rfl, fun text => decode_eq_ok_iff.mp⟩

end Cb58
end Valset
