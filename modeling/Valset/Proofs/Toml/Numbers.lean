import Mathlib.Data.List.Basic
import Valset.Proofs.Json.Tokens
import Valset.Proofs.Toml.Strings

/-!
# Numbers, dates and times of TOML text

The written forms of whole numbers, dates and times are read back to what they stand for. Digits
alone are no date, because a mark must follow the year and one must follow the hour.
-/

namespace Valset
namespace Toml

/-! ## What follows a value -/

/-- What stands behind a value: the end of its line, a comma, or the end of what it stands in. -/
inductive EndsValue : List Char → Prop
  | line (rest : List Char) : EndsValue ('\n' :: rest)
  | comma (rest : List Char) : EndsValue (',' :: rest)
  | bracket (rest : List Char) : EndsValue (']' :: rest)
  | brace (rest : List Char) : EndsValue (' ' :: '\x7d' :: rest)

/-- The characters that may stand right behind a value. -/
def valueEnds : List Char := ['\n', ',', ']', ' ']

section Ends

variable
  {rest : List Char}

/-- A value ends at a character that ends values, and no time follows. -/
theorem EndsValue.exists_cons (ends : EndsValue rest) :
    ∃ c behind, rest = c :: behind ∧ c ∈ valueEnds ∧ (isTimeMark c → takeTime behind = none) := by
  cases ends with
  | line rest => exact ⟨_, _, rfl, by decide, fun isMark => by cases isMark⟩
  | comma rest => exact ⟨_, _, rfl, by decide, fun isMark => by cases isMark⟩
  | bracket rest => exact ⟨_, _, rfl, by decide, fun isMark => by cases isMark⟩
  | brace rest =>
      refine ⟨_, _, rfl, by decide, fun _ => ?_⟩
      cases rest <;> rfl

/-- No character that a value goes on with ends it. -/
theorem EndsValue.head?_ne
    (ends : EndsValue rest)
    {c : Char}
    (foreign : c ∉ valueEnds) :
    rest.head? ≠ some c := by
  obtain ⟨first, behind, rfl, isEnd, -⟩ := ends.exists_cons
  rintro same
  obtain rfl : first = c := by simpa using same
  exact foreign isEnd

end Ends

/-! ## Digits -/

/-- A text in front of which digits end. -/
def EndsDigits (rest : List Char) : Prop :=
  ∀ c ∈ rest.head?, c.isDigit = false

section Digits

variable
  {c mark : Char}
  {count low high value : Nat}
  {digits chars rest behind : List Char}

@[simp] theorem endsDigits_cons : EndsDigits (c :: rest) ↔ c.isDigit = false := by
  simp [EndsDigits]

@[simp] theorem endsDigits_nil : EndsDigits [] := by
  simp [EndsDigits]

/-- What ends a value ends digits. -/
theorem EndsValue.endsDigits (ends : EndsValue rest) : EndsDigits rest := by
  cases ends <;> rw [endsDigits_cons] <;> rfl

theorem isDigit_of_mem_toDigits
    (value : Nat) :
    ∀ c ∈ Nat.toDigits 10 value, c.isDigit := fun _ present =>
  Nat.isDigit_of_mem_toDigits (by decide) (by decide) present

/-- Numbers of a fixed width are the same as numbers of digits. -/
theorem takeField_eq (count low high : Nat) (chars : List Char) :
    takeField count low high chars =
      if (chars.take count).length = count ∧ (chars.take count).all Char.isDigit ∧
          low ≤ Nat.ofDigitChars 10 (chars.take count) 0 ∧
          Nat.ofDigitChars 10 (chars.take count) 0 ≤ high then
        some (Nat.ofDigitChars 10 (chars.take count) 0, chars.drop count)
      else none := by
  have same : ∀ (digits : List Char), digits.foldl (fun n c => n * 10 + (c.toNat - 48)) 0 =
      Nat.ofDigitChars 10 digits 0 := by
    intro digits
    simp only [Nat.ofDigitChars, Nat.mul_comm 10]
    rfl
  rw [takeField, same]

/-- A number is padded with zeros in front of its digits. -/
theorem toList_padded (count value : Nat) :
    (padded count value).toList =
      List.replicate (count - (Nat.toDigits 10 value).length) '0' ++ Nat.toDigits 10 value := by
  have width : (toString value).length = (Nat.toDigits 10 value).length := by
    rw [← Nat.toList_repr]
    exact String.length_toList.symm
  rw [padded, String.toList_append, String.toList_ofList, width]
  exact congrArg _ Nat.toList_repr

theorem ofDigitChars_replicate_zero (count : Nat) :
    Nat.ofDigitChars 10 (List.replicate count '0') 0 = 0 := by
  induction count with
  | zero => rfl
  | succ count inductionHypothesis =>
      rw [List.replicate_succ, Nat.ofDigitChars_cons]
      exact inductionHypothesis

/-- A padded number that fits has as many characters as it is padded to. -/
theorem length_padded
    (positive : 0 < count)
    (narrow : value < 10 ^ count) :
    (padded count value).toList.length = count := by
  have short : (Nat.toDigits 10 value).length ≤ count :=
    (Nat.length_toDigits_le_iff (by decide) positive).mpr narrow
  rw [toList_padded, List.length_append, List.length_replicate]
  omega

/-- A number of a fixed width is read back. -/
theorem takeField_padded
    (positive : 0 < count)
    (narrow : value < 10 ^ count)
    (atLeast : low ≤ value)
    (atMost : value ≤ high)
    (rest : List Char) :
    takeField count low high ((padded count value).toList ++ rest) = some (value, rest) := by
  have width := length_padded positive narrow
  have number : Nat.ofDigitChars 10 (padded count value).toList 0 = value := by
    rw [toList_padded, Nat.ofDigitChars_append, ofDigitChars_replicate_zero,
      Nat.ofDigitChars_ten_toDigits]
  have allDigits : (padded count value).toList.all Char.isDigit := by
    rw [toList_padded, List.all_append, Bool.and_eq_true, List.all_eq_true, List.all_eq_true]
    refine ⟨fun c present => ?_, isDigit_of_mem_toDigits value⟩
    rw [List.eq_of_mem_replicate present]
    rfl
  rw [takeField_eq, List.take_left' width, List.drop_left' width, number,
    if_pos ⟨width, allDigits, atLeast, atMost⟩]

/-- No mark stands where a number of a fixed width ends within digits. -/
theorem takeMark_of_takeField
    (allDigits : ∀ c ∈ digits, c.isDigit)
    (ends : EndsDigits rest)
    (foreign : rest.head? ≠ some mark)
    (notDigit : mark.isDigit = false)
    (taken : takeField count low high (digits ++ rest) = some (value, behind)) :
    takeMark mark behind = none := by
  rw [takeField_eq] at taken
  split at taken
  · next fits =>
    obtain ⟨width, digitsTaken, -⟩ := fits
    have within : count ≤ digits.length := by
      by_contra beyond
      obtain ⟨more, rfl⟩ := Nat.exists_eq_add_of_lt (Nat.lt_of_not_le beyond)
      cases rest with
      | nil =>
          rw [List.length_take, List.append_nil] at width
          omega
      | cons c rest =>
          rw [Nat.add_assoc, List.take_length_add_append, List.take_succ_cons, List.all_append,
            List.all_cons, endsDigits_cons.mp ends] at digitsTaken
          simp at digitsTaken
    obtain rfl : (digits ++ rest).drop count = behind := congrArg Prod.snd (Option.some.inj taken)
    rw [List.drop_append_of_le_length within]
    cases left : digits.drop count with
    | nil =>
        cases rest with
        | nil => rfl
        | cons c rest =>
            have other : c ≠ mark := by simpa using foreign
            simp [takeMark, other]
    | cons c left =>
        have isDigit : c.isDigit := allDigits c (List.mem_of_mem_drop (left ▸ List.mem_cons_self))
        have other : c ≠ mark := Text.ne_of_test isDigit mark notDigit
        simp [takeMark, other]
  · cases taken

/-- Digits alone are neither a date nor a time. -/
theorem takeDateTime_digits
    (allDigits : ∀ c ∈ digits, c.isDigit)
    (ends : EndsValue rest) :
    takeDateTime (digits ++ rest) = none := by
  have noDate : takeDate (digits ++ rest) = none := by
    unfold takeDate
    cases taken : takeField 4 0 9999 (digits ++ rest) with
    | none => rfl
    | some year =>
        have noDash : rest.head? ≠ some '-' := ends.head?_ne (by decide)
        have noMark := takeMark_of_takeField allDigits ends.endsDigits noDash rfl taken
        simp [noMark]
  have noTime : takeTime (digits ++ rest) = none := by
    unfold takeTime
    cases taken : takeField 2 0 23 (digits ++ rest) with
    | none => rfl
    | some hour =>
        have noColon : rest.head? ≠ some ':' := ends.head?_ne (by decide)
        have noMark := takeMark_of_takeField allDigits ends.endsDigits noColon rfl taken
        simp [noMark]
  rw [takeDateTime, noDate]
  exact noTime

/-- Nothing that begins with another character than a digit is a date or a time. -/
theorem takeDateTime_cons (notDigit : c.isDigit = false) :
    takeDateTime (c :: rest) = none := by
  have noField : ∀ count low high, takeField (count + 1) low high (c :: rest) = none := by
    intro count low high
    simp [takeField, notDigit]
  simp [takeDateTime, takeDate, takeTime, noField]

theorem hexValue?_of_isDigit (isDigit : c.isDigit) : hexValue? c = some (c.toNat - 48) := by
  have between : '0' ≤ c ∧ c ≤ '9' := by
    simpa [Char.isDigit, Char.le_def] using isDigit
  simp [hexValue?, between]

/-- Digits have the value that they have in base 10. -/
theorem digitsValue_ten (allDigits : ∀ c ∈ digits, c.isDigit) :
    digitsValue 10 digits = Nat.ofDigitChars 10 digits 0 := by
  suffices sums : ∀ start, digits.foldl (fun n c => n * 10 + (hexValue? c).getD 0) start =
      Nat.ofDigitChars 10 digits start from sums 0
  induction digits with
  | nil => exact fun _ => rfl
  | cons c digits inductionHypothesis =>
      intro start
      rw [List.forall_mem_cons] at allDigits
      rw [List.foldl_cons, hexValue?_of_isDigit allDigits.1, Option.getD_some,
        inductionHypothesis allDigits.2, Nat.ofDigitChars_cons, Nat.mul_comm 10]
      rfl

/-- Digits without underscores are read up to where they end. -/
theorem takeGroups_append
    (nonempty : digits ≠ [])
    (allDigits : ∀ c ∈ digits, c.isDigit)
    (ends : EndsDigits rest)
    (ungrouped : rest.head? ≠ some '_') :
    takeGroups Char.isDigit (digits ++ rest) = some (digits, rest) := by
  induction digits with
  | nil => exact absurd rfl nonempty
  | cons c digits inductionHypothesis =>
      rw [List.forall_mem_cons] at allDigits
      cases digits with
      | nil =>
          cases rest with
          | nil => simp [takeGroups, allDigits.1]
          | cons d rest =>
              have other : d ≠ '_' := by simpa using ungrouped
              rw [List.singleton_append, takeGroups]
              · simp [allDigits.1, endsDigits_cons.mp ends]
              · simp [other]
      | cons d digits =>
          have isDigit : d.isDigit := allDigits.2 d List.mem_cons_self
          have other : d ≠ '_' := Text.ne_of_test isDigit '_' rfl
          have read := inductionHypothesis (List.cons_ne_nil d digits) allDigits.2
          rw [List.cons_append] at read
          rw [List.cons_append, List.cons_append, takeGroups]
          · simp [allDigits.1, isDigit, read]
          · simp [other]

end Digits

/-! ## Whole numbers -/

section Integers

variable
  {rest : List Char}

/-- The digits of a number are taken back. -/
theorem takeDecimal_toDigits
    (value : Nat)
    (ends : EndsValue rest) :
    takeDecimal (Nat.toDigits 10 value ++ rest) = some (Nat.toDigits 10 value, rest) := by
  rcases Nat.eq_zero_or_pos value with rfl | positive
  · rfl
  · have first := Json.head?_toDigits_ne_zero positive
    have groups := takeGroups_append Nat.toDigits_ne_nil (isDigit_of_mem_toDigits value)
      ends.endsDigits (ends.head?_ne (by decide))
    rw [← groups]
    cases shape : Nat.toDigits 10 value with
    | nil => exact absurd shape Nat.toDigits_ne_nil
    | cons c digits =>
        rw [shape] at first
        have notZero : c ≠ '0' := by simpa using first
        simp [takeDecimal, notZero]

/-- Digits behind a sign are read as a whole number. -/
theorem takeUnsigned_toDigits
    (negative : Bool)
    (value : Nat)
    (ends : EndsValue rest) :
    takeUnsigned negative (Nat.toDigits 10 value ++ rest) =
      (integer? (if negative then -(value : Int) else value)).map fun whole => (whole, rest) := by
  have number : digitsValue 10 (Nat.toDigits 10 value) = value := by
    rw [digitsValue_ten (isDigit_of_mem_toDigits value), Nat.ofDigitChars_ten_toDigits]
  have noFraction : takeFraction rest = some (none, rest) := by
    cases ends <;> rfl
  have noExponent : takeExponent rest = some (none, rest) := by
    cases ends <;> rfl
  rw [takeUnsigned, takeDecimal_toDigits value ends]
  cases fits : integer? (if negative then -(value : Int) else value) <;>
    simp [noFraction, noExponent, number, fits]

/-- Behind a zero in front of it a number ends. -/
theorem mem_valueEnds_of_zero
    {value : Nat}
    (ends : EndsValue rest)
    {second : Char}
    {behind : List Char}
    (same : Nat.toDigits 10 value ++ rest = '0' :: second :: behind) :
    second ∈ valueEnds := by
  rcases Nat.eq_zero_or_pos value with rfl | positive
  · obtain ⟨c, others, rfl, isEnd, -⟩ := ends.exists_cons
    obtain ⟨rfl, -⟩ := List.cons.inj (List.cons.inj same).2
    exact isEnd
  · have first := Json.head?_toDigits_ne_zero positive
    cases shape : Nat.toDigits 10 value with
    | nil => exact absurd shape Nat.toDigits_ne_nil
    | cons c digits =>
        rw [shape] at first same
        exact absurd (congrArg some (List.cons.inj same).1) first

theorem exists_toDigits_cons (value : Nat) :
    ∃ c digits, Nat.toDigits 10 value = c :: digits ∧ c.isDigit := by
  obtain ⟨c, digits, shape⟩ := List.exists_cons_of_ne_nil (Nat.toDigits_ne_nil (n := value))
  exact ⟨c, digits, shape, isDigit_of_mem_toDigits value c (shape ▸ List.mem_cons_self)⟩

/-- The digit in front of a number is neither a sign nor part of a word. -/
theorem takeSigned_digits
    (value : Nat)
    (rest : List Char) :
    takeSigned (Nat.toDigits 10 value ++ rest) =
        takeUnsigned false (Nat.toDigits 10 value ++ rest) ∧
      takeSigned ('-' :: (Nat.toDigits 10 value ++ rest)) =
        takeUnsigned true (Nat.toDigits 10 value ++ rest) := by
  obtain ⟨c, digits, shape, isDigit⟩ := exists_toDigits_cons value
  have differs := Text.ne_of_test isDigit
  rw [shape, List.cons_append]
  simp [takeSigned, takeSign, differs '-' rfl, differs '+' rfl, differs 'i' rfl, differs 'n' rfl]

/-- A whole number in the range of TOML is read back from its digits. -/
theorem takeNumber_integer
    {value : Int}
    (atLeast : -maxInteger - 1 ≤ value)
    (atMost : value ≤ maxInteger)
    (ends : EndsValue rest) :
    takeNumber ((toString value).toList ++ rest) = some (.integer value, rest) := by
  rcases value with value | value
  · have text : (toString (Int.ofNat value)).toList = Nat.toDigits 10 value := Nat.toList_repr
    have made : integer? (Int.ofNat value) = some (.integer (Int.ofNat value)) :=
      if_pos ⟨atLeast, atMost⟩
    have noDate := takeDateTime_digits (isDigit_of_mem_toDigits value) ends
    have unmarked : ∀ second behind, second ∉ valueEnds →
        Nat.toDigits 10 value ++ rest ≠ '0' :: second :: behind := fun second behind foreign same =>
      foreign (mem_valueEnds_of_zero ends same)
    rw [text, takeNumber, noDate]
    · simp only []
      rw [(takeSigned_digits value rest).1, takeUnsigned_toDigits false value ends]
      exact congrArg _ made
    · exact fun behind => unmarked 'x' behind (by decide)
    · exact fun behind => unmarked 'o' behind (by decide)
    · exact fun behind => unmarked 'b' behind (by decide)
  · have text : (toString (Int.negSucc value)).toList = '-' :: Nat.toDigits 10 (value + 1) :=
      Json.chars_whole_negSucc value
    have made : integer? (-((value + 1 : Nat) : Int)) = some (.integer (Int.negSucc value)) :=
      if_pos ⟨atLeast, atMost⟩
    rw [text, List.cons_append, takeNumber, takeDateTime_cons rfl]
    · simp only []
      rw [(takeSigned_digits (value + 1) rest).2, takeUnsigned_toDigits true (value + 1) ends,
        if_pos rfl, made]
      rfl
    · simp
    · simp
    · simp

end Integers

/-! ## Dates and times -/

/-- The texts of the days of the calendar. -/
inductive IsDate : String → Prop
  | day
      {year month day : Nat}
      (inYears : year ≤ 9999)
      (inMonths : 1 ≤ month ∧ month ≤ 12)
      (inDays : 1 ≤ day ∧ day ≤ daysOf year month) :
      IsDate s!"{padded 4 year}-{padded 2 month}-{padded 2 day}"

/-- The texts of parts of a second: up to nine digits, the last of which is not zero. -/
inductive IsFraction : String → Prop
  | whole : IsFraction ""
  | part
      {digits : List Char}
      (nonempty : digits ≠ [])
      (short : digits.length ≤ 9)
      (allDigits : ∀ c ∈ digits, c.isDigit)
      (shortest : digits.getLast? ≠ some '0') :
      IsFraction ("." ++ String.ofList digits)

/-- The texts of times of the day; a minute may have a leap second. -/
inductive IsTime : String → Prop
  | time
      {hour minute second : Nat}
      {fraction : String}
      (inDay : hour ≤ 23)
      (inHour : minute ≤ 59)
      (inMinute : second ≤ 60)
      (isFraction : IsFraction fraction) :
      IsTime s!"{padded 2 hour}:{padded 2 minute}:{padded 2 second}{fraction}"

/-- The texts of distances from the time at Greenwich; the distance zero has the sign plus. -/
inductive IsOffset : String → Prop
  | none : IsOffset ""
  | greenwich : IsOffset "Z"
  | ahead
      {hour minute : Nat}
      (inDay : hour ≤ 23)
      (inHour : minute ≤ 59) :
      IsOffset s!"+{padded 2 hour}:{padded 2 minute}"
  | behind
      {hour minute : Nat}
      (inDay : hour ≤ 23)
      (inHour : minute ≤ 59)
      (nonzero : hour ≠ 0 ∨ minute ≠ 0) :
      IsOffset s!"-{padded 2 hour}:{padded 2 minute}"

/-- The texts of dates and times. -/
inductive IsDateTime : String → Prop
  | date
      {date : String}
      (isDate : IsDate date) :
      IsDateTime date
  | time
      {time : String}
      (isTime : IsTime time) :
      IsDateTime time
  | both
      {date time offset : String}
      (isDate : IsDate date)
      (isTime : IsTime time)
      (isOffset : IsOffset offset) :
      IsDateTime (date ++ "T" ++ time ++ offset)

section Dates

variable
  {date time offset fraction text : String}
  {rest : List Char}

/-- A text is its own text. -/
theorem toString_text (text : String) : toString text = text :=
  rfl

@[simp] theorem takeMark_cons (mark : Char) (rest : List Char) :
    takeMark mark (mark :: rest) = some rest :=
  if_pos rfl

/-- No month has more than 31 days. -/
theorem daysOf_le (year month : Nat) : daysOf year month ≤ 31 := by
  unfold daysOf
  split_ifs <;> omega

/-- A number of two digits is read back. -/
theorem takeField_two
    {low high value : Nat}
    (twoDigits : high < 100)
    (between : low ≤ value ∧ value ≤ high)
    (rest : List Char) :
    takeField 2 low high ((padded 2 value).toList ++ rest) = some (value, rest) :=
  takeField_padded (by decide) (between.2.trans_lt twoDigits) between.1 between.2 rest

/-- A date is read back, whatever follows. -/
theorem takeDate_append
    (isDate : IsDate date)
    (rest : List Char) :
    takeDate (date.toList ++ rest) = some (date, rest) := by
  obtain @⟨year, month, day, inYears, inMonths, inDays⟩ := isDate
  have readYear := @takeField_padded 4 0 9999 year (by decide) (Nat.lt_succ_of_le inYears)
    (Nat.zero_le _) inYears
  have readMonth := takeField_two (by decide) inMonths
  have readDay := takeField_two ((daysOf_le year month).trans_lt (by decide)) inDays
  simp [takeDate, toString_text, readYear, readMonth, readDay]

/-- A part of a second is read back up to where it ends. -/
theorem takeSecondFraction_append
    (isFraction : IsFraction fraction)
    (ends : EndsDigits rest)
    (noPoint : rest.head? ≠ some '.') :
    takeSecondFraction (fraction.toList ++ rest) = some (fraction, rest) := by
  cases isFraction with
  | whole =>
      unfold takeSecondFraction
      split
      · next same => exact absurd (congrArg List.head? same) noPoint
      · rfl
  | @part digits nonempty short allDigits shortest =>
      have shown : ((digits.take 9).reverse.dropWhile (· == '0')).reverse = digits := by
        rw [List.take_of_length_le short]
        obtain ⟨front, last, rfl⟩ := (List.eq_nil_or_concat digits).resolve_left nonempty
        have notZero : last ≠ '0' := by simpa using shortest
        simp [notZero]
      have point : ("." ++ String.ofList digits).toList ++ rest = '.' :: (digits ++ rest) := by
        simp
      rw [point, takeSecondFraction, Text.takeWhile_run allDigits ends,
        Text.dropWhile_run allDigits ends]
      split
      · exact absurd rfl nonempty
      · simp only [shown]
        simp [nonempty]

/-- A time is read back up to where it ends. -/
theorem takeTime_append
    (isTime : IsTime time)
    (ends : EndsDigits rest)
    (noPoint : rest.head? ≠ some '.') :
    takeTime (time.toList ++ rest) = some (time, rest) := by
  obtain @⟨hour, minute, second, fraction, inDay, inHour, inMinute, isFraction⟩ := isTime
  have readHour := takeField_two (by decide) ⟨Nat.zero_le hour, inDay⟩
  have readMinute := takeField_two (by decide) ⟨Nat.zero_le minute, inHour⟩
  have readSecond := takeField_two (by decide) ⟨Nat.zero_le second, inMinute⟩
  have readFraction := takeSecondFraction_append isFraction ends noPoint
  simp [takeTime, toString_text, readHour, readMinute, readSecond, readFraction]

/-- A distance is read back up to where a value ends. -/
theorem takeOffset_append
    (isOffset : IsOffset offset)
    (ends : EndsValue rest) :
    takeOffset (offset.toList ++ rest) = some (offset, rest) := by
  cases isOffset with
  | none => cases ends <;> rfl
  | greenwich => rfl
  | @ahead hour minute inDay inHour =>
      have readHour := takeField_two (by decide) ⟨Nat.zero_le hour, inDay⟩
      have readMinute := takeField_two (by decide) ⟨Nat.zero_le minute, inHour⟩
      simp [takeOffset, toString_text, readHour, readMinute]
  | @behind hour minute inDay inHour nonzero =>
      have readHour := takeField_two (by decide) ⟨Nat.zero_le hour, inDay⟩
      have readMinute := takeField_two (by decide) ⟨Nat.zero_le minute, inHour⟩
      simp [takeOffset, toString_text, readHour, readMinute, nonzero]

/-- The hour of a time is no year. -/
theorem takeDate_of_isTime
    (isTime : IsTime time)
    (rest : List Char) :
    takeDate (time.toList ++ rest) = none := by
  obtain @⟨hour, minute, second, fraction, inDay, -, -, -⟩ := isTime
  obtain ⟨behind, shape⟩ : ∃ behind,
      s!"{padded 2 hour}:{padded 2 minute}:{padded 2 second}{fraction}".toList ++ rest =
        (padded 2 hour).toList ++ ':' :: behind := by
    simp [toString_text]
  have width : (padded 2 hour).toList.length = 2 := length_padded (by decide) (by omega)
  obtain ⟨tens, ones, digits⟩ := List.length_eq_two.1 width
  rw [shape, digits]
  simp [takeDate, takeField]

/-- Behind a time neither its digits nor a part of a second go on. -/
theorem IsOffset.ends_time
    (isOffset : IsOffset offset)
    (ends : EndsValue rest) :
    EndsDigits (offset.toList ++ rest) ∧ (offset.toList ++ rest).head? ≠ some '.' := by
  cases isOffset with
  | none => exact ⟨ends.endsDigits, ends.head?_ne (by decide)⟩
  | greenwich => exact ⟨endsDigits_cons.mpr rfl, by simp⟩
  | ahead => simp [toString_text]
  | behind => simp [toString_text]

/-- A date or time is read back. -/
theorem takeDateTime_append
    (isDateTime : IsDateTime text)
    (ends : EndsValue rest) :
    takeDateTime (text.toList ++ rest) = some (text, rest) := by
  cases isDateTime with
  | date isDate =>
      obtain ⟨c, behind, rfl, -, noTime⟩ := ends.exists_cons
      rw [takeDateTime, takeDate_append isDate]
      by_cases isMark : isTimeMark c
      · simp [isMark, noTime isMark]
      · simp [isMark]
  | time isTime =>
      rw [takeDateTime, takeDate_of_isTime isTime]
      exact takeTime_append isTime ends.endsDigits (ends.head?_ne (by decide))
  | @both date time offset isDate isTime isOffset =>
      obtain ⟨endsTime, noPoint⟩ := isOffset.ends_time ends
      have shape : (date ++ "T" ++ time ++ offset).toList ++ rest =
          date.toList ++ 'T' :: (time.toList ++ (offset.toList ++ rest)) := by
        simp
      rw [shape, takeDateTime, takeDate_append isDate]
      simp [isTimeMark, takeTime_append isTime endsTime noPoint, takeOffset_append isOffset ends]

/-- A date or time is taken back from its text. -/
theorem takeNumber_dateTime
    (isDateTime : IsDateTime text)
    (ends : EndsValue rest) :
    takeNumber (text.toList ++ rest) = some (.dateTime text, rest) := by
  unfold takeNumber
  rw [takeDateTime_append isDateTime ends]

end Dates

/-! ## How numbers begin -/

/-- A padded number begins with a digit. -/
theorem exists_padded_cons
    {count : Nat}
    (value : Nat) :
    ∃ c digits, (padded count value).toList = c :: digits ∧ c.isDigit := by
  rw [toList_padded]
  cases zeros : count - (Nat.toDigits 10 value).length with
  | zero => exact exists_toDigits_cons value
  | succ more => exact ⟨_, _, rfl, rfl⟩

/-- A date or time begins with a digit. -/
theorem IsDateTime.exists_cons
    {text : String}
    (isDateTime : IsDateTime text) :
    ∃ c chars, text.toList = c :: chars ∧ Json.beginsNumber c := by
  have begins : ∀ count value behind, ∃ c chars,
      (padded count value).toList ++ behind = c :: chars ∧ Json.beginsNumber c := by
    intro count value behind
    obtain ⟨c, digits, shape, isDigit⟩ := @exists_padded_cons count value
    exact ⟨c, digits ++ behind, by simp [shape], by simp [Json.beginsNumber, isDigit]⟩
  cases isDateTime with
  | date isDate =>
      cases isDate
      simp only [toString_text, String.toList_append, List.append_assoc]
      exact begins _ _ _
  | time isTime =>
      cases isTime
      simp only [toString_text, String.toList_append, List.append_assoc]
      exact begins _ _ _
  | both isDate isTime isOffset =>
      cases isDate
      simp only [toString_text, String.toList_append, List.append_assoc]
      exact begins _ _ _

/-- A whole number begins with a digit or a sign. -/
theorem exists_toString_cons (value : Int) :
    ∃ c chars, (toString value).toList = c :: chars ∧ Json.beginsNumber c := by
  rcases value with value | value
  · obtain ⟨c, digits, shape, isDigit⟩ := exists_toDigits_cons value
    exact ⟨c, digits, Nat.toList_repr.trans shape, by simp [Json.beginsNumber, isDigit]⟩
  · exact ⟨'-', _, Json.chars_whole_negSucc value, rfl⟩

end Toml
end Valset
