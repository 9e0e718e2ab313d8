import Mathlib.Tactic.IntervalCases
import Valset.Json.Parser
import Valset.Json.Printer
import Valset.Proofs.Text.Runs

/-!
# Tokens of JSON text

The written forms of numbers and strings are read back to what they stand for. A string ends with
its quote, whatever follows; a number ends where a character follows that cannot go on with it.
-/

namespace Valset
namespace Json

/-! ## Numbers -/

/-- A number that is written out in full: a whole one in the range of 64 bits with or without sign.
-/
def Number.Exact : Number → Prop
  | .whole value => -2 ^ 63 ≤ value ∧ value < 2 ^ 64
  | .double _ => False

/-- Whether a character behind a number belongs to it. -/
def extendsNumber (c : Char) : Bool :=
  c.isDigit || c == '.' || c == 'e' || c == 'E'

/-- A text that does not go on with a number in front of it. -/
def Delimits (rest : List Char) : Prop :=
  ∀ c ∈ rest.head?, extendsNumber c = false

@[simp] theorem delimits_nil : Delimits [] := by
  simp [Delimits]

@[simp] theorem delimits_cons
    {c : Char}
    {rest : List Char} :
    Delimits (c :: rest) ↔ extendsNumber c = false := by
  simp [Delimits]

theorem extendsNumber_eq_false_iff {c : Char} :
    extendsNumber c = false ↔ c.isDigit = false ∧ c ≠ '.' ∧ c ≠ 'e' ∧ c ≠ 'E' := by
  simp [extendsNumber, and_assoc]

/-- Digits end where no digit follows. -/
theorem takeDigits_append
    {digits rest : List Char}
    (nonempty : digits ≠ [])
    (allDigits : ∀ c ∈ digits, c.isDigit)
    (delimits : Delimits rest) :
    takeDigits (digits ++ rest) = some (digits, rest) := by
  have ends : ∀ c ∈ rest.head?, c.isDigit = false := fun c first =>
    (extendsNumber_eq_false_iff.mp (delimits c first)).1
  rw [takeDigits, Text.takeWhile_run allDigits ends, Text.dropWhile_run allDigits ends]
  cases digits with
  | nil => exact absurd rfl nonempty
  | cons c digits => rfl

/-- A positive number does not begin with a zero. -/
theorem head?_toDigits_ne_zero
    {value : Nat}
    (positive : 0 < value) :
    (Nat.toDigits 10 value).head? ≠ some '0' := by
  induction value using Nat.strongRecOn with
  | ind value inductionHypothesis =>
      rw [Nat.toDigits_eq_if (by decide)]
      split
      · simp [Nat.digitChar_eq_zero]
        omega
      · rw [List.head?_append, Option.or_of_isSome (by simp [Nat.toDigits_ne_nil])]
        exact inductionHypothesis _ (by omega) (by omega)

theorem takeInteger_toDigits
    (value : Nat)
    {rest : List Char}
    (delimits : Delimits rest) :
    takeInteger (Nat.toDigits 10 value ++ rest) = some (Nat.toDigits 10 value, rest) := by
  rcases Nat.eq_zero_or_pos value with rfl | positive
  · cases rest with
    | nil => rfl
    | cons c rest =>
        have noDigit := (extendsNumber_eq_false_iff.mp (delimits_cons.mp delimits)).1
        simp [Nat.toDigits_zero, takeInteger, noDigit]
  · have digits : takeDigits (Nat.toDigits 10 value ++ rest) =
        some (Nat.toDigits 10 value, rest) :=
      takeDigits_append Nat.toDigits_ne_nil
        (fun c => Nat.isDigit_of_mem_toDigits (by decide) (by decide)) delimits
    have first := head?_toDigits_ne_zero positive
    rw [← digits]
    cases shape : Nat.toDigits 10 value with
    | nil => exact absurd shape Nat.toDigits_ne_nil
    | cons c front =>
        rw [shape] at first
        have notZero : c ≠ '0' := by simpa using first
        simp [takeInteger, notZero]

theorem takeFraction_of_delimits
    {rest : List Char}
    (delimits : Delimits rest) :
    takeFraction rest = some ([], rest) := by
  cases rest with
  | nil => rfl
  | cons c rest =>
      have noPoint := (extendsNumber_eq_false_iff.mp (delimits_cons.mp delimits)).2.1
      simp [takeFraction, noPoint]

theorem takeExponent_of_delimits
    {rest : List Char}
    (delimits : Delimits rest) :
    takeExponent rest = some (none, rest) := by
  cases rest with
  | nil => rfl
  | cons c rest =>
      obtain ⟨_, _, noExponent⟩ := extendsNumber_eq_false_iff.mp (delimits_cons.mp delimits)
      simp [takeExponent, noExponent]

/-- Digits add up as long as the number fits. -/
theorem addIntegerDigits_of_fits
    {digits : List Char}
    {start : Nat}
    (fits : Nat.ofDigitChars 10 digits start ≤ maxWhole) :
    addIntegerDigits ⟨start, 0⟩ digits = ⟨Nat.ofDigitChars 10 digits start, 0⟩ := by
  induction digits generalizing start with
  | nil => rfl
  | cons c digits inductionHypothesis =>
      rw [Nat.ofDigitChars_cons, Nat.mul_comm 10 start] at fits ⊢
      have nextFits : start * 10 + (c.toNat - 48) ≤ maxWhole := by
        refine Nat.le_trans ?_ fits
        rw [Nat.ofDigitChars_eq_ofDigitChars_zero]
        exact Nat.le_add_right_of_le (Nat.le_mul_of_pos_left _ (by positivity))
      rw [addIntegerDigits, if_pos nextFits]
      exact inductionHypothesis fits

theorem addIntegerDigits_toDigits
    {value : Nat}
    (fits : value ≤ maxWhole) :
    addIntegerDigits ⟨0, 0⟩ (Nat.toDigits 10 value) = ⟨value, 0⟩ := by
  have sum_eq : Nat.ofDigitChars 10 (Nat.toDigits 10 value) 0 = value :=
    Nat.ofDigitChars_ten_toDigits
  rw [addIntegerDigits_of_fits (sum_eq.symm ▸ fits), sum_eq]

/-- Digits without a sign are read as a whole number. -/
theorem takeNumber_toDigits
    {value : Nat}
    (fits : value ≤ maxWhole)
    {rest : List Char}
    (delimits : Delimits rest) :
    takeNumber (Nat.toDigits 10 value ++ rest) = some (.whole value, rest) := by
  have made : makeNumber false (Nat.toDigits 10 value) [] none = some (.whole value) := by
    simp [makeNumber, wholeNumber, addIntegerDigits_toDigits fits]
  have integer := takeInteger_toDigits value delimits
  have digits : ∀ c ∈ Nat.toDigits 10 value, c.isDigit := fun c =>
    Nat.isDigit_of_mem_toDigits (by decide) (by decide)
  cases shape : Nat.toDigits 10 value with
  | nil => exact absurd shape Nat.toDigits_ne_nil
  | cons c front =>
      rw [shape] at made integer digits
      have noSign : c ≠ '-' := by
        rintro rfl
        exact absurd (digits _ List.mem_cons_self) (by decide)
      rw [List.cons_append] at integer
      simp [takeNumber, noSign, integer, takeFraction_of_delimits delimits,
        takeExponent_of_delimits delimits, made]

/-- Digits behind a sign are read as a negative number. -/
theorem takeNumber_neg_toDigits
    {value : Nat}
    (positive : 0 < value)
    (fits : value ≤ 2 ^ 63)
    {rest : List Char}
    (delimits : Delimits rest) :
    takeNumber ('-' :: Nat.toDigits 10 value ++ rest) = some (.whole (-value), rest) := by
  have made : makeNumber true (Nat.toDigits 10 value) [] none = some (.whole (-value)) := by
    have small : value ≤ Nat.pow 2 63 := fits
    rw [makeNumber, wholeNumber, addIntegerDigits_toDigits (by unfold maxWhole; simp; omega)]
    simp only [ne_eq, not_true_eq_false, if_false, positive, small, and_self, if_true]
  simp [takeNumber, takeInteger_toDigits value delimits, takeFraction_of_delimits delimits,
    takeExponent_of_delimits delimits, made]

theorem chars_whole_ofNat (value : Nat) :
    (Number.whole (.ofNat value)).chars = Nat.toDigits 10 value :=
  Nat.toList_repr

theorem chars_whole_negSucc (value : Nat) :
    (Number.whole (.negSucc value)).chars = '-' :: Nat.toDigits 10 (value + 1) := by
  change ("-" ++ (value + 1).repr).toList = _
  rw [String.toList_append, Nat.toList_repr]
  rfl

/-- A number is read back from its digits, whatever follows that cannot go on with it. -/
theorem takeNumber_chars
    {number : Number}
    (exact : number.Exact)
    {rest : List Char}
    (delimits : Delimits rest) :
    takeNumber (number.chars ++ rest) = some (number, rest) := by
  rcases number with value | value
  · obtain ⟨low, high⟩ := exact
    rcases value with value | value
    · rw [chars_whole_ofNat]
      exact takeNumber_toDigits (by unfold maxWhole; simp at high ⊢; omega) delimits
    · rw [chars_whole_negSucc]
      exact takeNumber_neg_toDigits (Nat.succ_pos value) (by omega) delimits
  · exact exact.elim

/-- Whether a number may begin with a character. -/
def beginsNumber (c : Char) : Bool :=
  c == '-' || c.isDigit

theorem exists_cons_of_exact
    {number : Number}
    (exact : number.Exact) :
    ∃ c rest, number.chars = c :: rest ∧ beginsNumber c := by
  rcases number with (value | value) | value
  · cases shape : Nat.toDigits 10 value with
    | nil => exact absurd shape Nat.toDigits_ne_nil
    | cons c rest =>
        have digit : c.isDigit := Nat.isDigit_of_mem_toDigits (b := 10) (n := value)
          (by decide) (by decide) (shape ▸ List.mem_cons_self)
        exact ⟨c, rest, Nat.toList_repr.trans shape, by simp [beginsNumber, digit]⟩
  · exact ⟨'-', (value + 1).repr.toList, String.toList_append .., rfl⟩
  · exact exact.elim

/-! ## Strings -/

/-- A control character is read back from its number in an escape. -/
theorem takeEscape_hexEscape
    {c : Char}
    (control : c.toNat < 0x20)
    (rest : List Char) :
    ∃ digits, hexEscape c.toNat = '\\' :: 'u' :: digits ∧
      takeEscape ('u' :: digits ++ rest) = some (c, rest) := by
  have number : Char.ofNat c.toNat = c := Char.ofNat_toNat c
  generalize c.toNat = value at control number
  subst number
  interval_cases value <;> exact ⟨_, rfl, rfl⟩

theorem takeString_of_takeEscape
    {c : Char}
    {chars rest : List Char}
    (escaped : takeEscape chars = some (c, rest))
    (fuel : Nat) :
    takeString (fuel + 1) ('\\' :: chars) =
      (takeString fuel rest).map fun taken => (c :: taken.1, taken.2) := by
  rw [takeString, escaped]
  cases taken : takeString fuel rest <;> simp [taken]

/-- A string goes on behind the written form of a character. -/
theorem takeString_escapeChar
    (fuel : Nat)
    (c : Char)
    (rest : List Char) :
    takeString (fuel + 1) (escapeChar c ++ rest) =
      (takeString fuel rest).map fun taken => (c :: taken.1, taken.2) := by
  by_cases named : c ∈ ['"', '\\', '\x08', '\x0c', '\n', '\r', '\t']
  · simp only [List.mem_cons, List.not_mem_nil, or_false] at named
    rcases named with rfl | rfl | rfl | rfl | rfl | rfl | rfl <;>
      exact takeString_of_takeEscape rfl fuel
  simp only [List.mem_cons, List.not_mem_nil, or_false, not_or] at named
  obtain ⟨notQuote, notBackslash, others⟩ := named
  by_cases control : c.toNat < 0x20
  · obtain ⟨digits, written, read⟩ := takeEscape_hexEscape control rest
    have escaped : escapeChar c = hexEscape c.toNat := by
      simp [escapeChar, notQuote, notBackslash, others, control]
    rw [escaped, written]
    exact takeString_of_takeEscape read fuel
  · have plain : escapeChar c = [c] := by
      simp [escapeChar, notQuote, notBackslash, others, control]
    rw [plain, List.singleton_append]
    cases taken : takeString fuel rest <;>
      simp [takeString, control, taken]

/-- A string is read back up to its closing quote. -/
theorem takeString_flatMap_escapeChar
    {fuel : Nat}
    {chars : List Char}
    (enough : chars.length < fuel)
    (rest : List Char) :
    takeString fuel (chars.flatMap escapeChar ++ '"' :: rest) = some (chars, rest) := by
  induction chars generalizing fuel with
  | nil =>
      obtain ⟨fuel, rfl⟩ := Nat.exists_eq_succ_of_ne_zero (Nat.ne_of_gt enough)
      rfl
  | cons c chars inductionHypothesis =>
      obtain ⟨fuel, rfl⟩ := Nat.exists_eq_succ_of_ne_zero (Nat.ne_zero_of_lt enough)
      have enoughLeft : chars.length < fuel := by simpa using enough
      rw [List.flatMap_cons, List.append_assoc, takeString_escapeChar,
        inductionHypothesis enoughLeft]
      rfl

theorem length_le_length_flatMap_escapeChar (chars : List Char) :
    chars.length ≤ (chars.flatMap escapeChar).length := by
  have nonempty (c : Char) : 1 ≤ (escapeChar c).length := by
    unfold escapeChar
    split_ifs <;> simp [hexEscape]
  induction chars with
  | nil => exact Nat.le_refl _
  | cons c chars inductionHypothesis =>
      rw [List.flatMap_cons, List.length_append, List.length_cons]
      have := nonempty c
      omega

end Json
end Valset
