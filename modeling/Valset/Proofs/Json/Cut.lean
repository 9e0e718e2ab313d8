import Valset.Proofs.Json.RoundTrip

/-!
# JSON text that was cut off

A text that was cut off inside an object cannot be mended by a further object behind it. A reader
that keeps count of open containers and strings shows why: whatever the parser takes, this reader
passes over as well, and a second object either leaves the first one open or stands where no object
can stand.
-/

namespace Valset
namespace Json

/-- Where a reader stands inside a number of open containers: between tokens, in a string, or behind
a backslash in a string. -/
inductive ReadingMode
  | outside (depth : Nat)
  | inside (depth : Nat)
  | escaped (depth : Nat)

/-- Whether a character may stand outside of strings without opening or closing anything. -/
def standsOutside (c : Char) : Bool :=
  isSpace c || extendsNumber c || ",:-+nulltruefalse".toList.contains c

namespace ReadingMode

/-- Passes over a character, if it may stand there. Once everything is closed, only blanks may. -/
def step : ReadingMode → Char → Option ReadingMode
  | outside 0, c => if isSpace c then some (outside 0) else none
  | outside (depth + 1), c =>
    if c = '"' then some (inside (depth + 1))
    else if c = '[' ∨ c = '\x7b' then some (outside (depth + 2))
    else if c = ']' ∨ c = '\x7d' then some (outside depth)
    else if standsOutside c then some (outside (depth + 1))
    else none
  | inside depth, c =>
    if c = '"' then some (outside depth)
    else if c = '\\' then some (escaped depth)
    else some (inside depth)
  | escaped depth, _ => some (inside depth)

/-- Passes over a text. -/
def after (mode : ReadingMode) : List Char → Option ReadingMode
  | [] => some mode
  | c :: rest => (mode.step c).bind (·.after rest)

@[simp] theorem after_nil (mode : ReadingMode) : mode.after [] = some mode := rfl

theorem after_cons
    (mode : ReadingMode)
    (c : Char)
    (rest : List Char) :
    mode.after (c :: rest) = (mode.step c).bind (·.after rest) := rfl

/-- A text is read in two parts, the second in the mode in which the first one ends. -/
theorem after_append
    (mode : ReadingMode)
    (front back : List Char) :
    mode.after (front ++ back) = (mode.after front).bind (·.after back) := by
  induction front generalizing mode with
  | nil => rfl
  | cons c front inductionHypothesis =>
      rw [List.cons_append, after_cons, after_cons, Option.bind_assoc]
      congr 1
      funext next
      exact inductionHypothesis next

/-! ## Passing over tokens -/

theorem step_of_standsOutside
    {c : Char}
    (stands : standsOutside c)
    (depth : Nat) :
    (outside (depth + 1)).step c = some (outside (depth + 1)) := by
  have foreign (other : Char) (different : standsOutside other = false) : c ≠ other := by
    rintro rfl
    simp [different] at stands
  simp [step, stands, foreign '"' rfl, foreign '[' rfl, foreign '\x7b' rfl, foreign ']' rfl,
    foreign '\x7d' rfl]

/-- Characters that stand outside of texts and brackets do not change the mode. -/
theorem after_of_standsOutside
    {front : List Char}
    (stands : ∀ c ∈ front, standsOutside c)
    (depth : Nat)
    (rest : List Char) :
    (outside (depth + 1)).after (front ++ rest) = (outside (depth + 1)).after rest := by
  induction front with
  | nil => rfl
  | cons c front inductionHypothesis =>
      rw [List.cons_append, after_cons, step_of_standsOutside (stands c List.mem_cons_self)]
      exact inductionHypothesis fun other present => stands other (List.mem_cons_of_mem _ present)

/-- Blanks outside of texts do not change the mode. -/
theorem after_skipSpace
    (depth : Nat)
    (chars : List Char) :
    (outside depth).after (skipSpace chars) = (outside depth).after chars := by
  induction chars with
  | nil => rfl
  | cons c rest inductionHypothesis =>
      by_cases blank : isSpace c
      · have stepped : (outside depth).step c = some (outside depth) := by
          cases depth with
          | zero => simp [step, blank]
          | succ depth => exact step_of_standsOutside (by simp [standsOutside, blank]) depth
        rw [after_cons, stepped, skipSpace, List.dropWhile_cons_of_pos blank]
        exact inductionHypothesis
      · rw [skipSpace_cons_of_not_space (by simpa using blank)]

/-! ## Passing over strings -/

theorem after_inside_cons
    {c : Char}
    (notQuote : c ≠ '"')
    (notBackslash : c ≠ '\\')
    (depth : Nat)
    (rest : List Char) :
    (inside depth).after (c :: rest) = (inside depth).after rest := by
  simp [after_cons, step, notQuote, notBackslash]

/-- Four hexadecimal digits within a text do not end it. -/
theorem after_of_takeHex4
    {chars rest : List Char}
    {value : Nat}
    (taken : takeHex4 chars = some (value, rest))
    (depth : Nat) :
    (inside depth).after chars = (inside depth).after rest := by
  have plain {x : Char} {number : Nat}
      (digit : (if '0' ≤ x ∧ x ≤ '9' then some (x.toNat - 48)
        else if 'a' ≤ x ∧ x ≤ 'f' then some (x.toNat - 87)
        else if 'A' ≤ x ∧ x ≤ 'F' then some (x.toNat - 55)
        else none) = some number)
      (later : List Char) :
      (inside depth).after (x :: later) = (inside depth).after later := by
    apply after_inside_cons
    · rintro rfl
      simp at digit
    · rintro rfl
      simp at digit
  unfold takeHex4 at taken
  split at taken
  · simp only [Option.bind_eq_bind, Option.bind_eq_some_iff, Option.pure_def, Option.some.injEq,
      Prod.mk.injEq] at taken
    obtain ⟨_, first, _, second, _, third, _, fourth, -, rfl⟩ := taken
    rw [plain first, plain second, plain third, plain fourth]
  · cases taken

theorem after_of_takeUnicode
    {chars rest : List Char}
    {c : Char}
    (taken : takeUnicode chars = some (c, rest))
    (depth : Nat) :
    (inside depth).after chars = (inside depth).after rest := by
  simp only [takeUnicode, Option.bind_eq_bind, Option.bind_eq_some_iff] at taken
  obtain ⟨⟨first, middle⟩, firstTaken, taken⟩ := taken
  rw [after_of_takeHex4 firstTaken]
  dsimp only at taken
  split_ifs at taken
  · split at taken
    · simp only [Option.bind_eq_some_iff] at taken
      obtain ⟨⟨second, last⟩, secondTaken, taken⟩ := taken
      split_ifs at taken
      obtain ⟨-, rfl⟩ := Prod.mk.inj (Option.some.inj taken)
      exact after_of_takeHex4 secondTaken depth
    · cases taken
  · obtain ⟨-, rfl⟩ := Prod.mk.inj (Option.some.inj taken)
    rfl

/-- An escape within a text does not end it. -/
theorem after_of_takeEscape
    {chars rest : List Char}
    {c : Char}
    (taken : takeEscape chars = some (c, rest))
    (depth : Nat) :
    (escaped depth).after chars = (inside depth).after rest := by
  unfold takeEscape at taken
  split at taken
  case h_9 behind => exact after_of_takeUnicode taken depth
  case h_10 => cases taken
  all_goals
    obtain ⟨rfl, rfl⟩ := Prod.mk.inj (Option.some.inj taken)
    rfl

/-- A string is passed over up to its closing quote. -/
theorem after_of_takeString
    {fuel : Nat}
    {chars taken rest : List Char}
    (read : takeString fuel chars = some (taken, rest))
    (depth : Nat) :
    (inside depth).after chars = (outside depth).after rest := by
  fun_induction takeString fuel chars generalizing taken with
  | case1 | case2 => cases read
  | case3 fuel behind =>
      obtain ⟨-, rfl⟩ := Prod.mk.inj (Option.some.inj read)
      rfl
  | case4 fuel behind inductionHypothesis =>
      simp only [Option.bind_eq_bind, Option.bind_eq_some_iff] at read
      obtain ⟨⟨c, middle⟩, escape, ⟨others, last⟩, string, read⟩ := read
      obtain ⟨-, rfl⟩ := Prod.mk.inj (Option.some.inj read)
      have escaped := after_of_takeEscape escape depth
      rw [after_cons]
      exact escaped.trans (inductionHypothesis middle string)
  | case5 => cases read
  | case6 fuel c behind notQuote notBackslash _ inductionHypothesis =>
      simp only [Option.bind_eq_bind, Option.bind_eq_some_iff] at read
      obtain ⟨⟨others, last⟩, string, read⟩ := read
      obtain ⟨-, rfl⟩ := Prod.mk.inj (Option.some.inj read)
      rw [after_inside_cons notQuote notBackslash]
      exact inductionHypothesis string

end ReadingMode

/-! ## Passing over numbers and words -/

/-- A text is a front that may stand outside of strings, and a rest. -/
def GoesOn (chars rest : List Char) : Prop :=
  ∃ front, chars = front ++ rest ∧ ∀ c ∈ front, standsOutside c

theorem GoesOn.refl (chars : List Char) : GoesOn chars chars :=
  ⟨[], rfl, by simp⟩

theorem GoesOn.trans
    {chars middle rest : List Char}
    (first : GoesOn chars middle)
    (second : GoesOn middle rest) :
    GoesOn chars rest := by
  obtain ⟨front, rfl, frontStands⟩ := first
  obtain ⟨more, rfl, moreStands⟩ := second
  refine ⟨front ++ more, (List.append_assoc ..).symm, ?_⟩
  intro c present
  rcases List.mem_append.mp present with inFront | inMore
  · exact frontStands c inFront
  · exact moreStands c inMore

theorem GoesOn.cons
    {c : Char}
    {chars rest : List Char}
    (stands : standsOutside c)
    (goesOn : GoesOn chars rest) :
    GoesOn (c :: chars) rest :=
  GoesOn.trans ⟨[c], rfl, by simpa using stands⟩ goesOn

/-- What goes on outside of texts and brackets does not change the mode. -/
theorem GoesOn.after_eq
    {chars rest : List Char}
    (goesOn : GoesOn chars rest)
    (depth : Nat) :
    (ReadingMode.outside (depth + 1)).after chars =
      (ReadingMode.outside (depth + 1)).after rest := by
  obtain ⟨front, rfl, stands⟩ := goesOn
  exact ReadingMode.after_of_standsOutside stands depth rest

theorem standsOutside_of_isDigit {c : Char} (digit : c.isDigit) : standsOutside c := by
  simp [standsOutside, extendsNumber, digit]

/-- Digits stand outside. -/
theorem goesOn_of_takeDigits
    {chars digits rest : List Char}
    (taken : takeDigits chars = some (digits, rest)) :
    GoesOn chars rest := by
  unfold takeDigits at taken
  split at taken
  · cases taken
  · obtain ⟨-, rfl⟩ := Prod.mk.inj (Option.some.inj taken)
    refine ⟨chars.takeWhile Char.isDigit, List.takeWhile_append_dropWhile.symm, ?_⟩
    intro c present
    exact standsOutside_of_isDigit (List.mem_takeWhile_imp present)

theorem goesOn_of_takeInteger
    {chars digits rest : List Char}
    (taken : takeInteger chars = some (digits, rest)) :
    GoesOn chars rest := by
  unfold takeInteger at taken
  split at taken
  · split at taken
    · split at taken
      · cases taken
      · obtain ⟨-, rfl⟩ := Prod.mk.inj (Option.some.inj taken)
        exact (GoesOn.refl _).cons (by decide)
    · obtain ⟨-, rfl⟩ := Prod.mk.inj (Option.some.inj taken)
      exact (GoesOn.refl _).cons (by decide)
  · exact goesOn_of_takeDigits taken

theorem goesOn_of_takeFraction
    {chars digits rest : List Char}
    (taken : takeFraction chars = some (digits, rest)) :
    GoesOn chars rest := by
  unfold takeFraction at taken
  split at taken
  · exact (goesOn_of_takeDigits taken).cons (by decide)
  · obtain ⟨-, rfl⟩ := Prod.mk.inj (Option.some.inj taken)
    exact GoesOn.refl _

theorem goesOn_of_takeExponent
    {chars rest : List Char}
    {exponent : Option (Bool × List Char)}
    (taken : takeExponent chars = some (exponent, rest)) :
    GoesOn chars rest := by
  unfold takeExponent at taken
  split at taken
  · rename_i c behind
    split_ifs at taken with mark
    · have stands : standsOutside c := by rcases mark with rfl | rfl <;> decide
      simp only [Option.bind_eq_bind, Option.bind_eq_some_iff] at taken
      obtain ⟨⟨digits, last⟩, digitsTaken, taken⟩ := taken
      obtain ⟨-, rfl⟩ := Prod.mk.inj (Option.some.inj taken)
      refine (GoesOn.trans ?_ (goesOn_of_takeDigits digitsTaken)).cons stands
      split
      · exact (GoesOn.refl _).cons (by decide)
      · exact (GoesOn.refl _).cons (by decide)
      · exact GoesOn.refl _
    · obtain ⟨-, rfl⟩ := Prod.mk.inj (Option.some.inj taken)
      exact GoesOn.refl _
  · obtain ⟨-, rfl⟩ := Prod.mk.inj (Option.some.inj taken)
    exact GoesOn.refl _

/-- A number stands outside. -/
theorem goesOn_of_takeNumber
    {chars rest : List Char}
    {number : Number}
    (taken : takeNumber chars = some (number, rest)) :
    GoesOn chars rest := by
  unfold takeNumber at taken
  simp only [Option.bind_eq_bind, Option.bind_eq_some_iff] at taken
  obtain ⟨integer, integerTaken, fraction, fractionTaken, exponent, exponentTaken, _, -, taken⟩ :=
    taken
  obtain ⟨-, rfl⟩ := Prod.mk.inj (Option.some.inj taken)
  refine GoesOn.trans ?_ ((goesOn_of_takeInteger integerTaken).trans
    ((goesOn_of_takeFraction fractionTaken).trans (goesOn_of_takeExponent exponentTaken)))
  split
  · exact (GoesOn.refl _).cons (by decide)
  · exact GoesOn.refl _

/-- A word whose letters stand outside does so as a whole. -/
theorem goesOn_of_takeWord
    {word chars rest : List Char}
    (stands : ∀ c ∈ word, standsOutside c)
    (taken : takeWord word chars = some rest) :
    GoesOn chars rest := by
  fun_induction takeWord word chars with
  | case1 chars =>
      obtain rfl := Option.some.inj taken
      exact GoesOn.refl _
  | case2 word c chars inductionHypothesis =>
      have standsRest : ∀ other ∈ word, standsOutside other :=
        fun other present => stands other (List.mem_cons_of_mem _ present)
      exact (inductionHypothesis standsRest taken).cons (stands c List.mem_cons_self)
  | case3 | case4 => cases taken

/-! ## Passing over values -/

open ReadingMode

/-- What the parser takes with some fuel is passed over: a value is, and so are items and fields up
to the mark that closes them. -/
structure PassesOver (fuel : Nat) : Prop where
  value {limit : Nat} {chars rest : List Char} {value : Json} :
    takeValue fuel limit chars = some (value, rest) →
      ∀ depth, (outside (depth + 1)).after chars = (outside (depth + 1)).after rest
  items {limit : Nat} {chars rest : List Char} {items : List Json} :
    takeItems fuel limit chars = some (items, rest) →
      ∀ depth, (outside (depth + 1)).after chars = (outside depth).after rest
  fields {limit : Nat} {chars rest : List Char} {fields : List (String × Json)} :
    takeFields fuel limit chars = some (fields, rest) →
      ∀ depth, (outside (depth + 1)).after chars = (outside depth).after rest

/-- A mark behind blanks is passed over with them. -/
theorem after_eq_of_skipSpace
    {chars rest : List Char}
    {mark : Char}
    (found : skipSpace chars = mark :: rest)
    {depth next : Nat}
    (stepped : (outside depth).step mark = some (outside next)) :
    (outside depth).after chars = (outside next).after rest := by
  rw [← after_skipSpace, found, after_cons, stepped]
  rfl

/-- Items lead out of their brackets. -/
theorem PassesOver.takeItems
    {fuel limit : Nat}
    {chars rest : List Char}
    {items : List Json}
    (passes : PassesOver fuel)
    (taken : takeItems (fuel + 1) limit chars = some (items, rest))
    (depth : Nat) :
    (outside (depth + 1)).after chars = (outside depth).after rest := by
  simp only [Json.takeItems, Option.bind_eq_bind, Option.bind_eq_some_iff] at taken
  obtain ⟨⟨item, behind⟩, itemTaken, taken⟩ := taken
  rw [passes.value itemTaken]
  dsimp only at taken
  split at taken
  · rename_i later found
    simp only [Option.bind_eq_some_iff] at taken
    obtain ⟨⟨others, last⟩, othersTaken, taken⟩ := taken
    obtain ⟨-, rfl⟩ := Prod.mk.inj (Option.some.inj taken)
    rw [after_eq_of_skipSpace found (step_of_standsOutside rfl depth)]
    exact passes.items othersTaken depth
  · rename_i later found
    obtain ⟨-, rfl⟩ := Prod.mk.inj (Option.some.inj taken)
    exact after_eq_of_skipSpace found rfl
  · cases taken

/-- Fields lead out of their braces. -/
theorem PassesOver.takeFields
    {fuel limit : Nat}
    {chars rest : List Char}
    {fields : List (String × Json)}
    (passes : PassesOver fuel)
    (taken : takeFields (fuel + 1) limit chars = some (fields, rest))
    (depth : Nat) :
    (outside (depth + 1)).after chars = (outside depth).after rest := by
  simp only [Json.takeFields] at taken
  split at taken
  · rename_i behind found
    simp only [Option.bind_eq_bind, Option.bind_eq_some_iff] at taken
    obtain ⟨⟨key, middle⟩, keyTaken, taken⟩ := taken
    rw [← after_skipSpace, found]
    change (inside (depth + 1)).after behind = _
    rw [after_of_takeString keyTaken]
    dsimp only at taken
    split at taken
    · rename_i later colon
      simp only [Option.bind_eq_some_iff] at taken
      obtain ⟨⟨value, last⟩, valueTaken, taken⟩ := taken
      rw [after_eq_of_skipSpace colon (step_of_standsOutside rfl depth), passes.value valueTaken]
      dsimp only at taken
      split at taken
      · rename_i others comma
        simp only [Option.bind_eq_some_iff] at taken
        obtain ⟨⟨otherFields, behindOthers⟩, othersTaken, taken⟩ := taken
        obtain ⟨-, rfl⟩ := Prod.mk.inj (Option.some.inj taken)
        rw [after_eq_of_skipSpace comma (step_of_standsOutside rfl depth)]
        exact passes.fields othersTaken depth
      · rename_i others brace
        obtain ⟨-, rfl⟩ := Prod.mk.inj (Option.some.inj taken)
        exact after_eq_of_skipSpace brace rfl
      · cases taken
    · cases taken
  · cases taken

theorem after_of_word
    {c : Char}
    {letters behind rest : List Char}
    {read value : Json}
    (stand : (c :: letters).all standsOutside)
    (taken : (read, ·) <$> takeWord letters behind = some (value, rest))
    (depth : Nat) :
    (outside (depth + 1)).after (c :: behind) = (outside (depth + 1)).after rest := by
  simp only [Option.map_eq_map, Option.map_eq_some_iff] at taken
  obtain ⟨later, wordTaken, same⟩ := taken
  obtain ⟨-, rfl⟩ := Prod.mk.inj same
  have stands := List.forall_mem_cons.mp (List.all_eq_true.mp stand)
  exact ((goesOn_of_takeWord stands.2 wordTaken).cons stands.1).after_eq depth

/-- Behind an opening bracket, an array is passed over up to its closing bracket. -/
theorem PassesOver.takeArray
    {fuel limit : Nat}
    {chars rest : List Char}
    {value : Json}
    (passes : PassesOver fuel)
    (taken : takeValue (fuel + 1) limit ('[' :: chars) = some (value, rest))
    (depth : Nat) :
    (outside (depth + 1)).after chars = (outside depth).after rest := by
  simp only [takeValue, skipSpace_cons_of_not_space (c := '[') rfl] at taken
  split at taken
  · cases taken
  · rw [← after_skipSpace]
    split at taken
    · rename_i later found
      obtain ⟨-, rfl⟩ := Prod.mk.inj (Option.some.inj taken)
      rw [found]
      rfl
    · simp only [Option.bind_eq_bind, Option.bind_eq_some_iff] at taken
      obtain ⟨⟨items, last⟩, itemsTaken, taken⟩ := taken
      obtain ⟨-, rfl⟩ := Prod.mk.inj (Option.some.inj taken)
      exact passes.items itemsTaken depth

/-- Behind an opening brace, an object is passed over up to its closing brace. -/
theorem PassesOver.takeObject
    {fuel limit : Nat}
    {chars rest : List Char}
    {value : Json}
    (passes : PassesOver fuel)
    (taken : takeValue (fuel + 1) limit ('\x7b' :: chars) = some (value, rest))
    (depth : Nat) :
    (outside (depth + 1)).after chars = (outside depth).after rest := by
  simp only [takeValue, skipSpace_cons_of_not_space (c := '\x7b') rfl] at taken
  split at taken
  · cases taken
  · rw [← after_skipSpace]
    split at taken
    · rename_i later found
      obtain ⟨-, rfl⟩ := Prod.mk.inj (Option.some.inj taken)
      rw [found]
      rfl
    · simp only [Option.bind_eq_bind, Option.bind_eq_some_iff] at taken
      obtain ⟨⟨fields, last⟩, fieldsTaken, taken⟩ := taken
      obtain ⟨-, rfl⟩ := Prod.mk.inj (Option.some.inj taken)
      exact passes.fields fieldsTaken depth

/-- A value is passed over as a whole, if what is in it can be. -/
theorem PassesOver.takeValue
    {fuel limit : Nat}
    {chars rest : List Char}
    {value : Json}
    (passes : PassesOver fuel)
    (taken : takeValue (fuel + 1) limit chars = some (value, rest))
    (depth : Nat) :
    (outside (depth + 1)).after chars = (outside (depth + 1)).after rest := by
  have whole := taken
  rw [← takeValue_skipSpace] at whole
  rw [← after_skipSpace]
  rw [Json.takeValue] at taken
  split at taken
  · rename_i behind found
    rw [found]
    exact after_of_word (by decide) taken depth
  · rename_i behind found
    rw [found]
    exact after_of_word (by decide) taken depth
  · rename_i behind found
    rw [found]
    exact after_of_word (by decide) taken depth
  · rename_i behind found
    simp only [Option.bind_eq_bind, Option.bind_eq_some_iff] at taken
    obtain ⟨⟨text, last⟩, textTaken, taken⟩ := taken
    obtain ⟨-, rfl⟩ := Prod.mk.inj (Option.some.inj taken)
    rw [found]
    exact after_of_takeString textTaken (depth + 1)
  · rename_i behind found
    rw [found] at whole ⊢
    exact passes.takeArray whole (depth + 1)
  · rename_i behind found
    rw [found] at whole ⊢
    exact passes.takeObject whole (depth + 1)
  · simp only [Option.bind_eq_bind, Option.bind_eq_some_iff] at taken
    obtain ⟨⟨number, last⟩, numberTaken, taken⟩ := taken
    obtain ⟨-, rfl⟩ := Prod.mk.inj (Option.some.inj taken)
    exact (goesOn_of_takeNumber numberTaken).after_eq depth

/-- Whatever the parser takes is passed over. -/
theorem passesOver (fuel : Nat) : PassesOver fuel := by
  induction fuel with
  | zero => exact ⟨nofun, nofun, nofun⟩
  | succ fuel passes => exact ⟨passes.takeValue, passes.takeItems, passes.takeFields⟩

/-- The text of an object is passed over, and nothing is left open behind it. -/
theorem after_of_parse
    {text : String}
    {chars : List Char}
    {value : Json}
    (opens : text.toList = '\x7b' :: chars)
    (parsed : parse text = some value) :
    (outside 1).after chars = some (outside 0) := by
  simp only [parse, opens, Option.bind_eq_bind, Option.bind_eq_some_iff] at parsed
  obtain ⟨⟨read, rest⟩, taken, parsed⟩ := parsed
  split_ifs at parsed with blank
  rw [(passesOver _).takeObject taken, ← after_skipSpace, List.isEmpty_iff.mp blank]
  rfl

/-! ## Texts behind cut ones -/

namespace ReadingMode

/-- The same place inside further containers. -/
def deepen (more : Nat) : ReadingMode → ReadingMode
  | outside depth => outside (depth + more)
  | inside depth => inside (depth + more)
  | escaped depth => escaped (depth + more)

/-- Further brackets around what is read change no step. -/
theorem step_deepen
    {mode next : ReadingMode}
    {c : Char}
    (stepped : mode.step c = some next)
    (more : Nat) :
    (mode.deepen more).step c = some (next.deepen more) := by
  rcases mode with (_ | depth) | depth | depth
  · simp only [step] at stepped
    split_ifs at stepped with blank
    obtain rfl := Option.some.inj stepped
    rw [deepen, Nat.zero_add]
    cases more with
    | zero => simp [step, blank]
    | succ more => exact step_of_standsOutside (by simp [standsOutside, blank]) more
  · have deeper : deepen more (outside (depth + 1)) = outside (depth + more + 1) := by
      rw [deepen, Nat.add_right_comm]
    rw [deeper]
    simp only [step] at stepped ⊢
    split_ifs at stepped ⊢ <;> obtain rfl := Option.some.inj stepped <;>
      simp [deepen, Nat.add_right_comm]
  · simp only [deepen, step] at stepped ⊢
    split_ifs at stepped ⊢ <;> obtain rfl := Option.some.inj stepped <;> rfl
  · obtain rfl := Option.some.inj stepped
    rfl

/-- Further brackets around what is read do not stop it. -/
theorem after_deepen
    {mode last : ReadingMode}
    {chars : List Char}
    (passed : mode.after chars = some last)
    (more : Nat) :
    (mode.deepen more).after chars = some (last.deepen more) := by
  induction chars generalizing mode with
  | nil =>
      obtain rfl := Option.some.inj passed
      rfl
  | cons c chars inductionHypothesis =>
      obtain ⟨next, stepped, passedRest⟩ := Option.bind_eq_some_iff.mp passed
      rw [after_cons, step_deepen stepped]
      exact inductionHypothesis passedRest

/-- Behind a string, letters that only a string may hold cannot stand. -/
theorem after_letters
    (depth : Nat)
    (chars : List Char) :
    (outside depth).after ('a' :: 'd' :: chars) = none := by
  cases depth <;> rfl

end ReadingMode

/-- No text that was cut off inside an object or right behind it is mended by a further object whose
first key begins with letters that can only stand in a string. -/
theorem parse_cut_eq_none
    {whole next : String}
    {cut chars : List Char}
    {value other : Json}
    (prefixed : '\x7b' :: cut <+: whole.toList)
    (parsed : parse whole = some value)
    (opens : next.toList = '\x7b' :: '"' :: 'a' :: 'd' :: chars)
    (parsedNext : parse next = some other) :
    parse (String.ofList ('\x7b' :: cut ++ next.toList)) = none := by
  obtain ⟨rest, wholeSplit⟩ := prefixed
  have passedWhole : (outside 1).after (cut ++ rest) = some (outside 0) :=
    after_of_parse wholeSplit.symm parsed
  rw [after_append, Option.bind_eq_some_iff] at passedWhole
  obtain ⟨mode, passedCut, -⟩ := passedWhole
  have passedNext := after_of_parse opens parsedNext
  by_contra someParsed
  obtain ⟨mended, parsedBoth⟩ := Option.ne_none_iff_exists'.mp someParsed
  have passedBoth : (outside 1).after (cut ++ next.toList) = some (outside 0) :=
    after_of_parse String.toList_ofList parsedBoth
  rw [after_append, passedCut, opens] at passedBoth
  rcases mode with (_ | depth) | depth | depth
  · cases passedBoth
  · -- The second object leaves open what the cut text has opened.
    have deeper := after_deepen passedNext (depth + 1)
    rw [deepen, Nat.add_comm 1] at deeper
    have leftOpen : some (outside 0) = some (outside (depth + 1)) := by
      rw [← passedBoth, Option.bind_some, after_cons]
      simpa [step, deepen] using deeper
    cases leftOpen
  -- The first quote of the second object closes the cut string.
  · exact absurd (passedBoth.symm.trans (after_letters depth chars)) nofun
  · exact absurd (passedBoth.symm.trans (after_letters depth chars)) nofun

end Json
end Valset
