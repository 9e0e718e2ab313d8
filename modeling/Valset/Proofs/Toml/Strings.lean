import Mathlib.Data.List.DropRight
import Mathlib.Tactic.IntervalCases
import Valset.Proofs.Text.Runs
import Valset.Toml.Parser
import Valset.Toml.Printer

/-!
# Strings and keys of TOML text

The written forms of strings and keys are read back to what they stand for. A string over several
lines may hold up to two quotes in a row, so that its end shows only in three of them.
-/

namespace Valset
namespace Toml

/-! ## Escapes -/

/-- The number of a control character is read back from four digits. -/
theorem takeEscape_upperHex4
    {c : Char}
    (control : c.toNat < 0x20 ∨ c.toNat = 0x7f)
    (rest : List Char) :
    takeEscape ('u' :: upperHex4 c.toNat ++ rest) = some (c, rest) := by
  have number : Char.ofNat c.toNat = c := Char.ofNat_toNat c
  generalize c.toNat = value at control number ⊢
  subst number
  rcases control with small | rfl
  · interval_cases value <;> rfl
  · rfl

/-- An escape is read back to its character, and does not end a line. -/
theorem exists_of_escape?
    {multi : Bool}
    {c : Char}
    {escape : List Char}
    (escaped : escape? multi c = some escape)
    (rest : List Char) :
    ∃ chars, escape = '\\' :: chars ∧ takeEscape (chars ++ rest) = some (c, rest) ∧
      takeContinuation (chars ++ rest) = none := by
  by_cases named : c ∈ ['\x08', '\t', '\n', '\x0c', '\r', '\\']
  · simp only [List.mem_cons, List.not_mem_nil, or_false] at named
    rcases named with rfl | rfl | rfl | rfl | rfl | rfl <;> cases multi <;> cases escaped <;>
      exact ⟨_, rfl, rfl, rfl⟩
  · simp only [List.mem_cons, List.not_mem_nil, or_false, not_or] at named
    have numbered : escape? multi c =
        if c.toNat < 0x20 ∨ c.toNat = 0x7f then some ('\\' :: 'u' :: upperHex4 c.toNat)
        else none := by
      simp [escape?, named]
    rw [numbered] at escaped
    split at escaped
    · next control =>
      obtain rfl := Option.some.inj escaped
      exact ⟨_, rfl, takeEscape_upperHex4 control rest, rfl⟩
    · cases escaped

/-- A character without an escape stands for itself. -/
theorem plain_of_escape?_eq_none
    {multi : Bool}
    {c : Char}
    (unescaped : escape? multi c = none) :
    c ≠ '\\' ∧ c ≠ '\r' ∧ (isTextChar c ∨ multi ∧ c = '\n') := by
  unfold escape? at unescaped
  split_ifs at unescaped with _ _ newline several _ notReturn notBackslash notControl
  · exact ⟨by subst newline; decide, by subst newline; decide, .inr ⟨several, newline⟩⟩
  · refine ⟨notBackslash, notReturn, .inl ?_⟩
    simp only [not_or, Nat.not_lt] at notControl
    simp [isTextChar, notControl]

/-- A character that is no quote is escaped by itself. -/
theorem escaped_cons_of_ne
    {c : Char}
    (notQuote : c ≠ '"')
    (multi : Bool)
    (run : Nat)
    (chars : List Char) :
    escaped multi run (c :: chars) =
      ((escape? multi c).getD [c]) ++ escaped multi 0 chars := by
  rw [escaped, if_neg notQuote]
  cases escape? multi c <;> rfl

/-- Escaping makes no text shorter. -/
theorem length_le_length_escaped (multi : Bool) (run : Nat) (chars : List Char) :
    chars.length ≤ (escaped multi run chars).length := by
  induction chars generalizing run with
  | nil => exact Nat.zero_le _
  | cons c chars inductionHypothesis =>
      by_cases quote : c = '"'
      · rw [escaped, if_pos quote]
        split
        · exact Nat.succ_le_succ (inductionHypothesis _)
        · exact Nat.succ_le_succ ((inductionHypothesis 0).trans (Nat.le_succ _))
      · have nonempty : 1 ≤ ((escape? multi c).getD [c]).length := by
          cases shape : escape? multi c with
          | none => exact Nat.le_refl 1
          | some escape =>
              obtain ⟨chars, rfl, -⟩ := exists_of_escape? shape []
              exact Nat.le_add_left 1 _
        have := inductionHypothesis 0
        rw [escaped_cons_of_ne quote, List.length_append, List.length_cons]
        omega

/-! ## Strings within a line -/

section Basic

variable
  {fuel : Nat}
  {c : Char}
  {chars rest : List Char}

/-- An escape in a basic string stands for its character. -/
theorem takeBasic_of_takeEscape (escaped : takeEscape chars = some (c, rest)) :
    takeBasic (fuel + 1) ('\\' :: chars) =
      (takeBasic fuel rest).map fun taken => (c :: taken.1, taken.2) := by
  rw [takeBasic, escaped]
  cases taken : takeBasic fuel rest <;> simp [taken]

/-- A plain character in a basic string stands for itself. -/
theorem takeBasic_of_plain
    (notQuote : c ≠ '"')
    (notBackslash : c ≠ '\\')
    (isText : isTextChar c) :
    takeBasic (fuel + 1) (c :: rest) =
      (takeBasic fuel rest).map fun taken => (c :: taken.1, taken.2) := by
  rw [takeBasic, if_pos isText]
  · cases takeBasic fuel rest <;> simp
  · exact notQuote
  · exact notBackslash

/-- A string in double quotes is read back up to the closing one. -/
theorem takeBasic_escaped
    (enough : chars.length < fuel)
    (rest : List Char) :
    takeBasic fuel (escaped false 0 chars ++ '"' :: rest) = some (chars, rest) := by
  induction chars generalizing fuel with
  | nil =>
      obtain ⟨fuel, rfl⟩ := Nat.exists_eq_succ_of_ne_zero (Nat.ne_zero_of_lt enough)
      rfl
  | cons c chars inductionHypothesis =>
      obtain ⟨fuel, rfl⟩ := Nat.exists_eq_succ_of_ne_zero (Nat.ne_zero_of_lt enough)
      have read := inductionHypothesis (Nat.lt_of_succ_lt_succ enough)
      by_cases quote : c = '"'
      · subst quote
        have written : escaped false 0 ('"' :: chars) = '\\' :: '"' :: escaped false 0 chars := rfl
        rw [written, List.cons_append, List.cons_append, takeBasic_of_takeEscape rfl, read]
        rfl
      · rw [escaped_cons_of_ne quote]
        cases shape : escape? false c with
        | some escape =>
            obtain ⟨escapeChars, rfl, taken, -⟩ :=
              exists_of_escape? shape (escaped false 0 chars ++ '"' :: rest)
            rw [Option.getD_some, List.append_assoc, List.cons_append,
              takeBasic_of_takeEscape taken, read]
            rfl
        | none =>
            obtain ⟨notBackslash, -, isText | several⟩ := plain_of_escape?_eq_none shape
            · rw [Option.getD_none, List.append_assoc, List.singleton_append,
                takeBasic_of_plain quote notBackslash isText, read]
              rfl
            · simp at several

/-- A string in single quotes is read back up to the closing one. -/
theorem takeLiteral_append
    (plain : ∀ c ∈ chars, c ≠ '\'' ∧ isTextChar c)
    (rest : List Char) :
    takeLiteral (chars ++ '\'' :: rest) = some (chars, rest) := by
  induction chars with
  | nil => rfl
  | cons c chars inductionHypothesis =>
      rw [List.forall_mem_cons] at plain
      simp [takeLiteral, plain.1, inductionHypothesis plain.2]

end Basic

/-! ## Strings over several lines -/

/-- A text in front of which a run of quotes ends. -/
def Unquoted (mark : Char) (rest : List Char) : Prop :=
  rest.head? ≠ some mark

section Multi

variable
  {mark c : Char}
  {run fuel : Nat}
  {chars rest : List Char}

/-- Marks are counted up to the first other character. -/
theorem takeWhile_replicate_append
    (unquoted : Unquoted mark rest)
    (run : Nat) :
    (List.replicate run mark ++ rest).takeWhile (· == mark) = List.replicate run mark := by
  refine Text.takeWhile_run ?_ ?_
  · intro c present
    simp [List.eq_of_mem_replicate present]
  · intro c first
    exact beq_false_of_ne fun same => unquoted (same ▸ first)

/-- Up to two quotes in a row stand for themselves. -/
theorem takeQuotes_inside
    (unquoted : Unquoted mark rest)
    (short : run ≤ 2) :
    takeQuotes mark (List.replicate run mark ++ rest) = .inside run rest := by
  rw [takeQuotes, takeWhile_replicate_append unquoted, List.length_replicate,
    if_pos (Nat.lt_succ_of_le short), List.drop_append_of_le_length (by simp)]
  simp

/-- Three quotes close a string, and up to two in front of them stand for themselves. -/
theorem takeQuotes_closing
    (unquoted : Unquoted mark rest)
    (short : run ≤ 2) :
    takeQuotes mark (List.replicate (run + 3) mark ++ rest) = .closing run rest := by
  have most : min (run + 3) 5 = run + 3 := by omega
  rw [takeQuotes, takeWhile_replicate_append unquoted, List.length_replicate,
    if_neg (by omega), most, List.drop_append_of_le_length (by simp)]
  simp

/-- Three marks close a string, and up to two in front of them belong to it. -/
theorem takeMulti_closing
    (unquoted : Unquoted mark rest)
    (short : run ≤ 2) :
    takeMulti mark (fuel + 1) (List.replicate (run + 3) mark ++ rest) =
      some (List.replicate run mark, rest) := by
  have shape : List.replicate (run + 3) mark ++ rest =
      mark :: (List.replicate (run + 2) mark ++ rest) := rfl
  have closed := takeQuotes_closing unquoted short
  rw [shape] at closed ⊢
  rw [takeMulti, if_pos rfl, closed]

/-- A string goes on behind a run of up to two quotes. -/
theorem takeMulti_run
    (unquoted : Unquoted mark rest)
    (short : run ≤ 2) :
    takeMulti mark (fuel + min run 1) (List.replicate run mark ++ rest) =
      (takeMulti mark fuel rest).map fun taken =>
        (List.replicate run mark ++ taken.1, taken.2) := by
  cases run with
  | zero => cases taken : takeMulti mark fuel rest <;> simp [taken]
  | succ run =>
      have one : min (run + 1) 1 = 1 := by omega
      have shape : List.replicate (run + 1) mark ++ rest =
          mark :: (List.replicate run mark ++ rest) := rfl
      have inside := takeQuotes_inside unquoted short
      rw [shape] at inside ⊢
      rw [one, takeMulti, if_pos rfl, inside]
      cases taken : takeMulti mark fuel rest <;> simp [taken]

/-- An escape in a string of several lines stands for its character. -/
theorem takeMulti_of_takeEscape
    (escaped : takeEscape chars = some (c, rest))
    (notContinued : takeContinuation chars = none) :
    takeMulti '"' (fuel + 1) ('\\' :: chars) =
      (takeMulti '"' fuel rest).map fun taken => (c :: taken.1, taken.2) := by
  rw [takeMulti, if_neg (by decide), if_pos ⟨rfl, rfl⟩, notContinued]
  cases taken : takeMulti '"' fuel rest <;> simp [escaped, taken]

/-- A character of text is no line break. -/
theorem takeBreak_of_isTextChar (isText : isTextChar c) (rest : List Char) :
    takeBreak (c :: rest) = none := by
  unfold takeBreak
  split
  · next same =>
    obtain ⟨rfl, -⟩ := List.cons.inj same
    cases isText
  · next same =>
    obtain ⟨rfl, -⟩ := List.cons.inj same
    cases isText
  · rfl

/-- A plain character in a string of several lines stands for itself. -/
theorem takeMulti_of_plain
    (notMark : c ≠ mark)
    (notEscape : ¬ (c = '\\' ∧ mark = '"'))
    (plain : isTextChar c ∨ c = '\n') :
    takeMulti mark (fuel + 1) (c :: rest) =
      (takeMulti mark fuel rest).map fun taken => (c :: taken.1, taken.2) := by
  rw [takeMulti, if_neg notMark, if_neg notEscape]
  rcases plain with isText | rfl
  · rw [takeBreak_of_isTextChar isText]
    cases takeMulti mark fuel rest <;> simp [isText]
  · cases taken : takeMulti mark fuel rest <;> simp [takeBreak, taken]

/-- A character other than a quote is read back from its written form. -/
theorem takeMulti_escape
    (fuel : Nat)
    (notQuote : c ≠ '"')
    (rest : List Char) :
    Unquoted '"' ((escape? true c).getD [c] ++ rest) ∧
      takeMulti '"' (fuel + 1) ((escape? true c).getD [c] ++ rest) =
        (takeMulti '"' fuel rest).map fun taken => (c :: taken.1, taken.2) := by
  cases shape : escape? true c with
  | some escape =>
      obtain ⟨escapeChars, rfl, taken, notContinued⟩ := exists_of_escape? shape rest
      exact ⟨by simp [Unquoted], takeMulti_of_takeEscape taken notContinued⟩
  | none =>
      obtain ⟨notBackslash, -, plain⟩ := plain_of_escape?_eq_none shape
      exact ⟨by simpa [Unquoted] using notQuote, takeMulti_of_plain notQuote
        (fun escapes => notBackslash escapes.1) (plain.imp_right And.right)⟩

/-- A string in three double quotes is read back up to the closing ones; `run` quotes in front of
its text have not been read yet. -/
theorem takeMulti_escaped
    (short : run ≤ 2)
    (enough : run + chars.length < fuel)
    (unquoted : Unquoted '"' rest) :
    takeMulti '"' fuel (List.replicate run '"' ++
      (escaped true run chars ++ (List.replicate 3 '"' ++ rest))) =
        some (List.replicate run '"' ++ chars, rest) := by
  induction chars generalizing run fuel with
  | nil =>
      obtain ⟨fuel, rfl⟩ := Nat.exists_eq_succ_of_ne_zero (Nat.ne_zero_of_lt enough)
      rw [escaped, List.nil_append, ← List.append_assoc, List.replicate_append_replicate,
        List.append_nil]
      exact takeMulti_closing unquoted short
  | cons c chars inductionHypothesis =>
      rw [List.length_cons] at enough
      by_cases quote : c = '"'
      · subst quote
        by_cases more : run < 2
        · -- A further quote joins those that have not been read yet.
          have written : escaped true run ('"' :: chars) = '"' :: escaped true (run + 1) chars := by
            simp [escaped, more]
          have read := @inductionHypothesis (run + 1) fuel (by omega) (by omega)
          rw [List.replicate_succ', List.append_assoc, List.append_assoc, List.singleton_append,
            List.singleton_append] at read
          rwa [written, List.cons_append]
        · have written : escaped true run ('"' :: chars) =
              '\\' :: '"' :: escaped true 0 chars := by
            simp [escaped, more]
          rw [written]
          obtain ⟨fuel, rfl⟩ : ∃ less, fuel = (less + 1) + min run 1 :=
            ⟨fuel - 1 - min run 1, by omega⟩
          rw [List.cons_append, List.cons_append, takeMulti_run (by simp [Unquoted]) short,
            takeMulti_of_takeEscape rfl rfl]
          have read := @inductionHypothesis 0 fuel (by omega) (by omega)
          rw [List.replicate_zero, List.nil_append, List.nil_append] at read
          rw [read]
          rfl
      · obtain ⟨fuel, rfl⟩ : ∃ less, fuel = (less + 1) + min run 1 :=
          ⟨fuel - 1 - min run 1, by omega⟩
        obtain ⟨unquotedText, step⟩ := takeMulti_escape fuel quote
          (escaped true 0 chars ++ (List.replicate 3 '"' ++ rest))
        have read := @inductionHypothesis 0 fuel (by omega) (by omega)
        rw [List.replicate_zero, List.nil_append, List.nil_append] at read
        rw [escaped_cons_of_ne quote, List.append_assoc, takeMulti_run unquotedText short, step,
          read]
        rfl

/-- A string in three single quotes is read back up to the closing ones; `run` quotes in front of
its text have not been read yet. -/
theorem takeMulti_raw
    (plain : ∀ c ∈ chars, isTextChar c ∨ c = '\n')
    (short : longestRun '\'' run chars ≤ 2)
    (enough : run + chars.length < fuel)
    (unquoted : Unquoted '\'' rest) :
    takeMulti '\'' fuel (List.replicate run '\'' ++ (chars ++ (List.replicate 3 '\'' ++ rest))) =
      some (List.replicate run '\'' ++ chars, rest) := by
  induction chars generalizing run fuel with
  | nil =>
      obtain ⟨fuel, rfl⟩ := Nat.exists_eq_succ_of_ne_zero (Nat.ne_zero_of_lt enough)
      rw [List.nil_append, ← List.append_assoc, List.replicate_append_replicate, List.append_nil]
      exact takeMulti_closing unquoted short
  | cons c chars inductionHypothesis =>
      rw [List.length_cons] at enough
      rw [List.forall_mem_cons] at plain
      by_cases quote : c = '\''
      · rw [longestRun, if_pos quote] at short
        have read := @inductionHypothesis (run + 1) fuel plain.2 short (by omega)
        rw [List.replicate_succ', List.append_assoc, List.append_assoc, List.singleton_append,
          List.singleton_append] at read
        rwa [quote, List.cons_append]
      · rw [longestRun, if_neg quote] at short
        have shortFirst : run ≤ 2 := (Nat.le_max_left ..).trans short
        have shortRest : longestRun '\'' 0 chars ≤ 2 := (Nat.le_max_right ..).trans short
        obtain ⟨fuel, rfl⟩ : ∃ less, fuel = (less + 1) + min run 1 :=
          ⟨fuel - 1 - min run 1, by omega⟩
        have read := @inductionHypothesis 0 fuel plain.2 shortRest (by omega)
        rw [List.replicate_zero, List.nil_append, List.nil_append] at read
        rw [List.cons_append, takeMulti_run (by simpa [Unquoted] using quote) shortFirst,
          takeMulti_of_plain quote (by simp) plain.1, read]
        rfl

end Multi

/-! ## Strings in their forms -/

theorem isTextChar_of_not_isControl
    {c : Char}
    (notControl : isControl c = false) :
    isTextChar c ∨ c = '\n' := by
  simp only [isControl, isTextChar, Bool.or_eq_false_iff, Bool.and_eq_false_iff,
    decide_eq_false_iff_not, bne_eq_false_iff_eq, beq_eq_false_iff_ne, Bool.or_eq_true,
    Bool.and_eq_true, beq_iff_eq, decide_eq_true_eq, bne_iff_ne] at notControl ⊢
  grind

/-- The body of a string over several lines is read from where its first line starts. -/
theorem takeMultiBody_opening
    (mark : Char)
    (chars : List Char)
    {body : List Char}
    (unbroken : '\n' ∉ chars → takeBreak body = none) :
    takeMultiBody mark (opening chars ++ body) = takeMulti mark (body.length + 1) body := by
  unfold takeMultiBody opening
  by_cases broken : '\n' ∈ chars
  · simp [broken, takeBreak]
  · simp [broken, unbroken broken]

section Forms

variable
  {chars rest : List Char}

/-- A text that starts with neither part of a line break does not start with one. -/
theorem takeBreak_eq_none
    (notNewline : chars.head? ≠ some '\n')
    (notReturn : chars.head? ≠ some '\r') :
    takeBreak chars = none := by
  unfold takeBreak
  split
  · exact absurd rfl notNewline
  · exact absurd rfl notReturn
  · rfl

/-- A text without line breaks does not begin with one once it is escaped. -/
theorem takeBreak_escaped
    (unbroken : '\n' ∉ chars)
    (rest : List Char) :
    takeBreak (escaped true 0 chars ++ '"' :: rest) = none := by
  cases chars with
  | nil => rfl
  | cons c chars =>
      by_cases quote : c = '"'
      · subst quote
        rfl
      · rw [escaped_cons_of_ne quote]
        cases shape : escape? true c with
        | some escape =>
            obtain ⟨escapeChars, rfl, -⟩ := exists_of_escape? shape []
            rfl
        | none =>
            obtain ⟨-, notReturn, -⟩ := plain_of_escape?_eq_none shape
            have notNewline : c ≠ '\n' := fun same => unbroken (by simp [same])
            exact takeBreak_eq_none (by simpa using notNewline) (by simpa using notReturn)

/-- A basic string is read back. -/
theorem takeString_basic
    (unquoted : Unquoted '"' rest) :
    takeString (StringForm.basic.write chars ++ rest) = some (String.ofList chars, rest) := by
  have shape : StringForm.basic.write chars ++ rest =
      '"' :: (escaped false 0 chars ++ '"' :: rest) := by
    simp [StringForm.write]
  have enough : chars.length < (escaped false 0 chars ++ '"' :: rest).length + 1 := by
    have := length_le_length_escaped false 0 chars
    rw [List.length_append]
    omega
  have single : ∀ behind, escaped false 0 chars ++ '"' :: rest ≠ '"' :: '"' :: behind := by
    intro behind same
    cases chars with
    | nil =>
        have next : rest = '"' :: behind := by simpa [escaped] using same
        exact unquoted (by simp [next])
    | cons c chars =>
        by_cases quote : c = '"'
        · simp [escaped, quote] at same
        · rw [escaped_cons_of_ne quote] at same
          cases found : escape? false c with
          | some escape =>
              obtain ⟨escapeChars, rfl, -⟩ := exists_of_escape? found []
              simp [found] at same
          | none =>
              rw [found] at same
              exact quote (List.cons.inj same).1
  rw [shape, takeString, takeBasic_escaped enough]
  · rfl
  · exact single

/-- Characters that a string in single quotes may hold. -/
def PlainLiteral (chars : List Char) : Prop :=
  ∀ c ∈ chars, c ≠ '\'' ∧ isTextChar c

theorem plainLiteral_of_isPlainFor
    (plain : StringForm.isPlainFor chars .literal) :
    PlainLiteral chars := by
  simp only [StringForm.isPlainFor, Bool.and_eq_true, Bool.not_eq_true', List.any_eq_false,
    List.contains_eq_mem, decide_eq_false_iff_not] at plain
  obtain ⟨⟨notControl, notQuote⟩, notNewline⟩ := plain
  intro c present
  refine ⟨fun same => notQuote (same ▸ present), ?_⟩
  have isText := isTextChar_of_not_isControl (Bool.eq_false_iff.mpr (notControl c present))
  exact isText.resolve_right fun same => notNewline (same ▸ present)

/-- A literal string is read back. -/
theorem takeString_literal
    (plain : PlainLiteral chars)
    (unquoted : Unquoted '\'' rest) :
    takeString (StringForm.literal.write chars ++ rest) = some (String.ofList chars, rest) := by
  have shape : StringForm.literal.write chars ++ rest = '\'' :: (chars ++ '\'' :: rest) := by
    simp [StringForm.write]
  have single : ∀ behind, chars ++ '\'' :: rest ≠ '\'' :: '\'' :: behind := by
    intro behind same
    cases chars with
    | nil =>
        have next : rest = '\'' :: behind := by simpa using same
        exact unquoted (by simp [next])
    | cons c chars => exact (plain c List.mem_cons_self).1 (List.cons.inj same).1
  rw [shape, takeString, takeLiteral_append plain]
  · rfl
  · exact single

/-- A basic string of several lines is read back. -/
theorem takeString_multiBasic
    (unquoted : Unquoted '"' rest) :
    takeString (StringForm.multiBasic.write chars ++ rest) = some (String.ofList chars, rest) := by
  have shape : StringForm.multiBasic.write chars ++ rest =
      '"' :: '"' :: '"' ::
        (opening chars ++ (escaped true 0 chars ++ (List.replicate 3 '"' ++ rest))) := by
    simp [StringForm.write, List.replicate]
  have enough : 0 + chars.length <
      (escaped true 0 chars ++ (List.replicate 3 '"' ++ rest)).length + 1 := by
    have := length_le_length_escaped true 0 chars
    rw [List.length_append]
    omega
  have unbroken : '\n' ∉ chars →
      takeBreak (escaped true 0 chars ++ (List.replicate 3 '"' ++ rest)) = none :=
    fun absent => takeBreak_escaped absent _
  have read := takeMulti_escaped (Nat.zero_le 2) enough unquoted
  rw [List.replicate_zero, List.nil_append, List.nil_append] at read
  rw [shape, takeString, takeMultiBody_opening '"' chars unbroken, read]
  rfl

/-- A literal string of several lines is read back. -/
theorem takeString_multiLiteral
    (plain : StringForm.isPlainFor chars .multiLiteral)
    (unquoted : Unquoted '\'' rest) :
    takeString (StringForm.multiLiteral.write chars ++ rest) =
      some (String.ofList chars, rest) := by
  simp only [StringForm.isPlainFor, Bool.and_eq_true, Bool.not_eq_true', List.any_eq_false,
    decide_eq_true_eq] at plain
  obtain ⟨notControl, short⟩ := plain
  have isText : ∀ c ∈ chars, isTextChar c ∨ c = '\n' := fun c present =>
    isTextChar_of_not_isControl (Bool.eq_false_iff.mpr (notControl c present))
  have shape : StringForm.multiLiteral.write chars ++ rest =
      '\'' :: '\'' :: '\'' :: (opening chars ++ (chars ++ (List.replicate 3 '\'' ++ rest))) := by
    simp [StringForm.write, List.replicate]
  have enough : 0 + chars.length < (chars ++ (List.replicate 3 '\'' ++ rest)).length + 1 := by
    rw [List.length_append]
    omega
  have unbroken : '\n' ∉ chars →
      takeBreak (chars ++ (List.replicate 3 '\'' ++ rest)) = none := by
    intro absent
    cases chars with
    | nil => rfl
    | cons c chars =>
        have text : isTextChar c :=
          (isText c List.mem_cons_self).resolve_right fun same => absent (by simp [same])
        exact takeBreak_of_isTextChar text _
  have read := takeMulti_raw isText short enough unquoted
  rw [List.replicate_zero, List.nil_append, List.nil_append] at read
  rw [shape, takeString, takeMultiBody_opening '\'' chars unbroken, read]
  rfl

/-- A form without escapes is chosen for what it shows without one only. -/
theorem isPlainFor_of_forString
    {form : StringForm}
    (chosen : StringForm.forString chars = form)
    (noEscapes : form = .literal ∨ form = .multiLiteral) :
    form.isPlainFor chars := by
  unfold StringForm.forString at chosen
  split at chosen
  · next found => exact chosen ▸ List.find?_some found
  · subst chosen
    split at noEscapes <;> simp at noEscapes

/-- A string is read back from whichever form it is written in. -/
theorem takeString_stringChars
    (value : String)
    (notDouble : Unquoted '"' rest)
    (notSingle : Unquoted '\'' rest) :
    takeString (stringChars value ++ rest) = some (value, rest) := by
  have named : some (value, rest) = some (String.ofList value.toList, rest) := by simp
  rw [stringChars, named]
  cases form : StringForm.forString value.toList with
  | basic => exact takeString_basic notDouble
  | multiBasic => exact takeString_multiBasic notDouble
  | literal =>
      have plain := isPlainFor_of_forString form (.inl rfl)
      exact takeString_literal (plainLiteral_of_isPlainFor plain) notSingle
  | multiLiteral =>
      exact takeString_multiLiteral (isPlainFor_of_forString form (.inr rfl)) notSingle

end Forms

/-! ## Keys -/

section Keys

variable
  {rest : List Char}

/-- A text in front of which a key without quotes ends. -/
def EndsKey (rest : List Char) : Prop :=
  ∀ c ∈ rest.head?, isKeyChar c = false

@[simp] theorem endsKey_cons {c : Char} : EndsKey (c :: rest) ↔ isKeyChar c = false := by
  simp [EndsKey]

/-- What a key can begin with. -/
def beginsKey (c : Char) : Bool :=
  isKeyChar c || c == '"' || c == '\''

/-- A key begins with a character that begins keys. -/
theorem exists_cons_keyChars (key : String) :
    ∃ c chars, keyChars key = c :: chars ∧ beginsKey c := by
  unfold keyChars
  simp only []
  split
  · next bare =>
    simp only [Bool.and_eq_true, Bool.not_eq_true', List.isEmpty_eq_false_iff,
      List.all_eq_true] at bare
    obtain ⟨c, chars, shape⟩ := List.exists_cons_of_ne_nil bare.1
    have isKey : isKeyChar c := bare.2 c (by simp [shape])
    exact ⟨c, chars, shape, by simp [beginsKey, isKey]⟩
  · cases StringForm.forKey key.toList with
    | literal => exact ⟨_, _, rfl, rfl⟩
    | basic => exact ⟨_, _, rfl, rfl⟩
    | multiBasic => exact ⟨_, _, rfl, rfl⟩
    | multiLiteral => exact ⟨_, _, rfl, rfl⟩

/-- Nothing is skipped in front of a character that is no blank. -/
theorem skipBlanks_cons
    {c : Char}
    (marked : isBlank c = false)
    (rest : List Char) :
    skipBlanks (c :: rest) = c :: rest :=
  List.dropWhile_cons_of_neg (by simp [marked])

/-- No key begins with a blank. -/
theorem skipBlanks_keyChars (key : String) (rest : List Char) :
    skipBlanks (keyChars key ++ rest) = keyChars key ++ rest := by
  obtain ⟨c, chars, shape, begins⟩ := exists_cons_keyChars key
  have differs := Text.ne_of_test begins
  have notBlank : isBlank c = false := by simp [isBlank, differs ' ' rfl, differs '\t' rfl]
  rw [shape, List.cons_append, skipBlanks_cons notBlank]

/-- A key without quotes reaches up to where it ends. -/
theorem takeKeyPart_bare
    {chars : List Char}
    (nonempty : chars ≠ [])
    (bare : ∀ c ∈ chars, isKeyChar c)
    (ends : EndsKey rest) :
    takeKeyPart (chars ++ rest) = some (String.ofList chars, rest) := by
  obtain ⟨c, others, rfl⟩ := List.exists_cons_of_ne_nil nonempty
  have isKey : isKeyChar c := bare c List.mem_cons_self
  unfold takeKeyPart
  split
  · next same =>
    rw [(List.cons.inj same).1] at isKey
    cases isKey
  · next same =>
    rw [(List.cons.inj same).1] at isKey
    cases isKey
  · rw [Text.takeWhile_run bare ends, Text.dropWhile_run bare ends]

/-- A key is read back from its written form. -/
theorem takeKeyPart_keyChars
    (key : String)
    (ends : EndsKey rest) :
    takeKeyPart (keyChars key ++ rest) = some (key, rest) := by
  have named : some (key, rest) = some (String.ofList key.toList, rest) := by simp
  have basic : takeKeyPart (StringForm.basic.write key.toList ++ rest) = some (key, rest) := by
    have enough : key.toList.length < (escaped false 0 key.toList ++ '"' :: rest).length + 1 := by
      have := length_le_length_escaped false 0 key.toList
      rw [List.length_append]
      omega
    have shape : StringForm.basic.write key.toList ++ rest =
        '"' :: (escaped false 0 key.toList ++ '"' :: rest) := by
      simp [StringForm.write]
    rw [named, shape, takeKeyPart, takeBasic_escaped enough]
    rfl
  unfold keyChars
  simp only []
  split
  · next bare =>
    simp only [Bool.and_eq_true, Bool.not_eq_true', List.isEmpty_eq_false_iff,
      List.all_eq_true] at bare
    rw [named]
    exact takeKeyPart_bare bare.1 bare.2 ends
  · unfold StringForm.forKey
    cases found : ([.basic, .literal] : List StringForm).find?
        (StringForm.isPlainFor key.toList) with
    | none => exact basic
    | some form =>
        have plain := List.find?_some found
        have listed := List.mem_of_find?_eq_some found
        simp only [List.mem_cons, List.not_mem_nil, or_false] at listed
        rcases listed with rfl | rfl
        · exact basic
        · have shape : StringForm.literal.write key.toList ++ rest =
              '\'' :: (key.toList ++ '\'' :: rest) := by
            simp [StringForm.write]
          rw [named, Option.getD_some, shape, takeKeyPart,
            takeLiteral_append (plainLiteral_of_isPlainFor plain)]
          rfl

@[simp] theorem pathChars_singleton (key : String) : pathChars [key] = keyChars key := by
  simp [pathChars]

theorem pathChars_cons_cons (key next : String) (path : List String) :
    pathChars (key :: next :: path) = keyChars key ++ '.' :: pathChars (next :: path) := by
  simp [pathChars]

/-- The keys on a path begin with the first of them. -/
theorem exists_pathChars_eq
    {path : List String}
    (nonempty : path ≠ []) :
    ∃ key rest, pathChars path = keyChars key ++ rest := by
  match path with
  | [key] => exact ⟨key, [], by simp⟩
  | key :: next :: path => exact ⟨key, _, pathChars_cons_cons key next path⟩

/-- A path has no more keys than characters. -/
theorem length_le_length_pathChars (path : List String) :
    path.length ≤ (pathChars path).length := by
  match path with
  | [] => exact Nat.zero_le _
  | [key] =>
      obtain ⟨c, chars, shape, -⟩ := exists_cons_keyChars key
      simp [shape]
  | key :: next :: path =>
      have := length_le_length_pathChars (next :: path)
      simp only [pathChars_cons_cons, List.length_append, List.length_cons] at this ⊢
      omega

/-- The keys on a path are read back up to where the last one ends. -/
theorem takeKeyParts_pathChars
    {path : List String}
    (nonempty : path ≠ [])
    {fuel : Nat}
    (enough : path.length ≤ fuel)
    (ends : EndsKey rest)
    (undotted : (skipBlanks rest).head? ≠ some '.') :
    takeKeyParts fuel (pathChars path ++ rest) = some (path, skipBlanks rest) := by
  have positive : 0 < fuel := (List.length_pos_iff.mpr nonempty).trans_le enough
  obtain ⟨fuel, rfl⟩ := Nat.exists_eq_succ_of_ne_zero positive.ne'
  match path with
  | [key] =>
      rw [pathChars_singleton, takeKeyParts, skipBlanks_keyChars, takeKeyPart_keyChars key ends]
      simp only [Option.bind_eq_bind, Option.bind_some]
      split
      · next dotted => simp [dotted] at undotted
      · rfl
  | key :: next :: path =>
      have read := takeKeyParts_pathChars (List.cons_ne_nil next path)
        (Nat.le_of_succ_le_succ enough) ends undotted
      have endsDot : EndsKey ('.' :: (pathChars (next :: path) ++ rest)) := endsKey_cons.mpr rfl
      rw [pathChars_cons_cons, List.append_assoc, List.cons_append, takeKeyParts,
        skipBlanks_keyChars, takeKeyPart_keyChars key endsDot]
      simp [skipBlanks_cons, isBlank, read]

@[simp] theorem skipBlanks_skipBlanks (chars : List Char) :
    skipBlanks (skipBlanks chars) = skipBlanks chars :=
  List.dropWhile_idempotent _ _

/-- A key with the path in front of it is read back from behind blanks. -/
theorem takeKey_of_skipBlanks
    {chars : List Char}
    {path : List String}
    {key : String}
    (starts : skipBlanks chars = pathChars (path ++ [key]) ++ rest)
    (fits : path.length + 1 < depthLimit)
    (ends : EndsKey rest)
    (undotted : (skipBlanks rest).head? ≠ some '.') :
    takeKey chars = some (path, key, skipBlanks rest) := by
  have shorter : (skipBlanks chars).length ≤ chars.length :=
    (List.dropWhile_sublist isBlank).length_le
  have enough : (path ++ [key]).length ≤ chars.length + 1 := by
    refine (length_le_length_pathChars (path ++ [key])).trans ?_
    rw [starts, List.length_append] at shorter
    omega
  have skipped : takeKeyParts (chars.length + 1) chars =
      takeKeyParts (chars.length + 1) (skipBlanks chars) := by
    rw [takeKeyParts, takeKeyParts, skipBlanks_skipBlanks]
  rw [takeKey, skipped, starts, takeKeyParts_pathChars (by simp) enough ends undotted]
  simp [fits]

end Keys

end Toml
end Valset
