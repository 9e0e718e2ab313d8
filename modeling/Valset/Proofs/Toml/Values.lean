import Valset.Proofs.Toml.Numbers
import Valset.Proofs.Toml.Tables

/-!
# Values within a line of TOML text

A value that is written within a line is read back from it, as long as its numbers are whole, its
tables hold no key twice and its arrays and tables are not nested too deep.
-/

namespace Valset
namespace Toml

mutual

/-- A value that is read back inside at most `depth` more arrays and tables. -/
def Readable : (depth : Nat) → Toml → Prop
  | _, .string _ => True
  | _, .integer value => -maxInteger - 1 ≤ value ∧ value ≤ maxInteger
  | _, .double _ => False
  | _, .bool _ => True
  | _, .dateTime text => IsDateTime text
  | 0, .array _ => False
  | depth + 1, .array items => ReadableItems depth items
  | 0, .table _ => False
  | depth + 1, .table fields => (fields.map Prod.fst).Nodup ∧ ReadableFields depth fields

/-- Items that are read back inside at most `depth` more arrays and tables. -/
def ReadableItems : (depth : Nat) → List Toml → Prop
  | _, [] => True
  | depth, item :: rest => Readable depth item ∧ ReadableItems depth rest

/-- Fields that are read back inside at most `depth` more arrays and tables. -/
def ReadableFields : (depth : Nat) → List (String × Toml) → Prop
  | _, [] => True
  | depth, (_, value) :: rest => Readable depth value ∧ ReadableFields depth rest

end

mutual

/-- What is read back is read back inside fewer arrays and tables, too. -/
theorem Readable.mono
    {value : Toml}
    {depth limit : Nat}
    (readable : value.Readable depth)
    (within : depth ≤ limit) :
    value.Readable limit := by
  match value, depth, limit, within, readable with
  | .string _, _, _, _, _ => simp [Readable]
  | .integer _, _, _, _, readable => simpa [Readable] using readable
  | .bool _, _, _, _, _ => simp [Readable]
  | .dateTime _, _, _, _, readable => simpa [Readable] using readable
  | .array items, depth + 1, limit + 1, within, readable =>
      exact ReadableItems.mono readable (Nat.le_of_succ_le_succ within)
  | .table fields, depth + 1, limit + 1, within, readable =>
      exact ⟨readable.1, ReadableFields.mono readable.2 (Nat.le_of_succ_le_succ within)⟩

/-- Items that are readable within a depth are so within a larger one. -/
theorem ReadableItems.mono
    {items : List Toml}
    {depth limit : Nat}
    (readable : ReadableItems depth items)
    (within : depth ≤ limit) :
    ReadableItems limit items := by
  match items with
  | [] => simp [ReadableItems]
  | item :: rest => exact ⟨readable.1.mono within, ReadableItems.mono readable.2 within⟩

/-- Fields that are readable within a depth are so within a larger one. -/
theorem ReadableFields.mono
    {fields : List (String × Toml)}
    {depth limit : Nat}
    (readable : ReadableFields depth fields)
    (within : depth ≤ limit) :
    ReadableFields limit fields := by
  match fields with
  | [] => simp [ReadableFields]
  | (_, value) :: rest => exact ⟨readable.1.mono within, ReadableFields.mono readable.2 within⟩

end

/-! ## How values begin -/

/-- What a value can begin with. -/
def beginsValue (c : Char) : Bool :=
  Json.beginsNumber c || ['"', '\'', 't', 'f', '[', '\x7b'].contains c

theorem exists_stringChars_cons (text : String) :
    ∃ c chars, stringChars text = c :: chars ∧ (c = '"' ∨ c = '\'') := by
  unfold stringChars
  cases StringForm.forString text.toList with
  | basic => exact ⟨_, _, rfl, .inl rfl⟩
  | literal => exact ⟨_, _, rfl, .inr rfl⟩
  | multiBasic => exact ⟨_, _, rfl, .inl rfl⟩
  | multiLiteral => exact ⟨_, _, rfl, .inr rfl⟩

/-- A value begins with a character that begins values. -/
theorem exists_inlineChars_cons
    {depth : Nat}
    {value : Toml}
    (readable : value.Readable depth) :
    ∃ c chars, inlineChars value = c :: chars ∧ beginsValue c := by
  match value, depth, readable with
  | .string text, _, _ =>
      obtain ⟨c, chars, shape, rfl | rfl⟩ := exists_stringChars_cons text
      · exact ⟨_, chars, shape, rfl⟩
      · exact ⟨_, chars, shape, rfl⟩
  | .integer value, _, _ =>
      obtain ⟨c, chars, shape, begins⟩ := exists_toString_cons value
      exact ⟨c, chars, shape, by simp [beginsValue, begins]⟩
  | .bool true, _, _ => exact ⟨_, _, rfl, rfl⟩
  | .bool false, _, _ => exact ⟨_, _, rfl, rfl⟩
  | .dateTime text, _, readable =>
      have isDateTime : IsDateTime text := by simpa [Readable] using readable
      obtain ⟨c, chars, shape, begins⟩ := isDateTime.exists_cons
      exact ⟨c, chars, shape, by simp [beginsValue, begins]⟩
  | .array _, _, _ => exact ⟨_, _, rfl, rfl⟩
  | .table [], _, _ => exact ⟨_, _, rfl, rfl⟩
  | .table (field :: fields), _, _ => exact ⟨'\x7b', _, rfl, rfl⟩

/-! ## Steps of reading -/

theorem isBlank_of_beginsValue
    {c : Char}
    (begins : beginsValue c) :
    isBlank c = false := by
  have differs := Text.ne_of_test begins
  simp [isBlank, differs ' ' rfl, differs '\t' rfl]

/-- Lines are skipped up to what is neither blank nor a comment. -/
theorem skipLines_of_skipBlanks
    {chars rest : List Char}
    {c : Char}
    (starts : skipBlanks chars = c :: rest)
    (unmarked : c ∉ ['#', '\n', '\r'])
    (fuel : Nat) :
    skipLines (fuel + 1) chars = c :: rest := by
  simp only [List.mem_cons, List.not_mem_nil, or_false, not_or] at unmarked
  obtain ⟨notComment, notNewline, notReturn⟩ := unmarked
  have uncommented : skipComment (c :: rest) = c :: rest := by
    unfold skipComment
    split
    · next same => exact absurd (List.cons.inj same).1 notComment
    · rfl
  have unbroken : takeBreak (c :: rest) = none :=
    takeBreak_eq_none (by simpa using notNewline) (by simpa using notReturn)
  simp [skipLines, starts, uncommented, unbroken]

section Steps

variable
  {fuel depth : Nat}
  {c : Char}
  {chars middle rest behind : List Char}
  {item : Toml}
  {key : String}

/-- What begins like a number is taken as one. -/
theorem takeValue_number (begins : Json.beginsNumber c) :
    takeValue assemble (fuel + 1) depth (c :: rest) = takeNumber (c :: rest) := by
  have differs := Text.ne_of_test begins
  simp [takeValue, differs '"' rfl, differs '\'' rfl, differs 't' rfl, differs 'f' rfl,
    differs '[' rfl, differs '\x7b' rfl]

/-- A text is taken back from its string. -/
theorem takeValue_string
    (text : String)
    (notDouble : Unquoted '"' rest)
    (notSingle : Unquoted '\'' rest) :
    takeValue assemble (fuel + 1) depth (stringChars text ++ rest) =
      some (.string text, rest) := by
  have read := takeString_stringChars text notDouble notSingle
  obtain ⟨c, chars, shape, rfl | rfl⟩ := exists_stringChars_cons text
  · rw [shape, List.cons_append] at read ⊢
    simp [takeValue, read]
  · rw [shape, List.cons_append] at read ⊢
    simp [takeValue, read]

/-- Lines are skipped up to where a value begins. -/
theorem skipLines_inlineChars
    (readable : item.Readable depth)
    (starts : skipBlanks chars = inlineChars item ++ rest)
    (fuel : Nat) :
    skipLines (fuel + 1) chars = inlineChars item ++ rest := by
  obtain ⟨c, others, shape, begins⟩ := exists_inlineChars_cons readable
  have differs := Text.ne_of_test begins
  rw [shape, List.cons_append] at starts ⊢
  exact skipLines_of_skipBlanks starts
    (by simp [differs '#' rfl, differs '\n' rfl, differs '\r' rfl]) fuel

/-- Behind a comma there are further items. -/
theorem takeItems_of_comma
    (readable : item.Readable depth)
    (starts : skipBlanks chars = inlineChars item ++ ',' :: behind)
    (first : takeValue assemble fuel depth (inlineChars item ++ ',' :: behind) =
      some (item, ',' :: behind)) :
    takeItems assemble (fuel + 1) depth chars =
      (takeItems assemble fuel depth behind).map fun taken => (item :: taken.1, taken.2) := by
  obtain ⟨c, others, shape, begins⟩ := exists_inlineChars_cons readable
  have notBracket : c ≠ ']' := Text.ne_of_test begins ']' rfl
  have comma : skipLines ((',' :: behind).length + 1) (',' :: behind) = ',' :: behind :=
    skipLines_of_skipBlanks rfl (by decide) _
  rw [takeItems, skipLines_inlineChars readable starts]
  rw [shape, List.cons_append] at first ⊢
  cases taken : takeItems assemble fuel depth behind <;>
    simp [notBracket, first, -List.length_cons, comma, taken]

/-- A bracket ends the items. -/
theorem takeItems_of_bracket
    (readable : item.Readable depth)
    (starts : skipBlanks chars = inlineChars item ++ ']' :: behind)
    (first : takeValue assemble fuel depth (inlineChars item ++ ']' :: behind) =
      some (item, ']' :: behind)) :
    takeItems assemble (fuel + 1) depth chars = some ([item], behind) := by
  obtain ⟨c, others, shape, begins⟩ := exists_inlineChars_cons readable
  have notBracket : c ≠ ']' := Text.ne_of_test begins ']' rfl
  have bracket : skipLines ((']' :: behind).length + 1) (']' :: behind) = ']' :: behind :=
    skipLines_of_skipBlanks rfl (by decide) _
  rw [takeItems, skipLines_inlineChars readable starts]
  rw [shape, List.cons_append] at first ⊢
  simp [notBracket, first, -List.length_cons, bracket]

/-- The equals sign behind a key is read with the key. -/
theorem takeKey_of_field
    (starts : skipBlanks chars = keyChars key ++ (" = ".toList ++ middle)) :
    takeKey chars = some ([], key, '=' :: ' ' :: middle) := by
  have onPath : skipBlanks chars = pathChars ([] ++ [key]) ++ (" = ".toList ++ middle) := by
    simpa using starts
  exact takeKey_of_skipBlanks onPath (by decide) (endsKey_cons.mpr rfl) nofun

/-- Behind a comma there are further pairs. -/
theorem takePairs_of_comma
    (starts : skipBlanks chars = keyChars key ++ (" = ".toList ++ middle))
    (unblank : skipBlanks middle = middle)
    (first : takeValue assemble fuel depth middle = some (item, ',' :: behind)) :
    takePairs assemble (fuel + 1) depth chars =
      (takePairs assemble fuel depth behind).map fun taken =>
        (plainPair (key, item) :: taken.1, taken.2) := by
  have blank : skipBlanks (' ' :: middle) = middle := unblank
  have comma : skipBlanks (',' :: behind) = ',' :: behind := rfl
  rw [takePairs, takeKey_of_field starts]
  cases taken : takePairs assemble fuel depth behind <;>
    simp [blank, first, comma, taken, plainPair]

/-- A brace ends the pairs. -/
theorem takePairs_of_brace
    (starts : skipBlanks chars = keyChars key ++ (" = ".toList ++ middle))
    (unblank : skipBlanks middle = middle)
    (first : takeValue assemble fuel depth middle = some (item, ' ' :: '\x7d' :: behind)) :
    takePairs assemble (fuel + 1) depth chars = some ([plainPair (key, item)], behind) := by
  have blank : skipBlanks (' ' :: middle) = middle := unblank
  have brace : skipBlanks (' ' :: '\x7d' :: behind) = '\x7d' :: behind := rfl
  rw [takePairs, takeKey_of_field starts]
  simp [blank, first, brace, plainPair]

end Steps

/-! ## Reading back -/

/-- No value begins with a blank. -/
theorem skipBlanks_inlineChars
    {depth : Nat}
    {value : Toml}
    (readable : value.Readable depth)
    (rest : List Char) :
    skipBlanks (inlineChars value ++ rest) = inlineChars value ++ rest := by
  obtain ⟨c, chars, shape, begins⟩ := exists_inlineChars_cons readable
  rw [shape, List.cons_append, skipBlanks_cons (isBlank_of_beginsValue begins)]

theorem inlineItems_cons_cons (item next : Toml) (items : List Toml) :
    inlineItems (item :: next :: items) =
      inlineChars item ++ ',' :: ' ' :: inlineItems (next :: items) := by
  simp [inlineItems]

theorem inlineFields_cons_cons
    (key : String)
    (value : Toml)
    (next : String × Toml)
    (fields : List (String × Toml)) :
    inlineFields ((key, value) :: next :: fields) =
      keyChars key ++ (" = ".toList ++
        (inlineChars value ++ ',' :: ' ' :: inlineFields (next :: fields))) := by
  simp [inlineFields]

theorem skipBlanks_inlineItems
    {depth : Nat}
    {item : Toml}
    (readable : item.Readable depth)
    (items : List Toml)
    (rest : List Char) :
    skipBlanks (inlineItems (item :: items) ++ rest) = inlineItems (item :: items) ++ rest := by
  cases items with
  | nil => exact skipBlanks_inlineChars readable rest
  | cons next items =>
      rw [inlineItems_cons_cons, List.append_assoc]
      exact skipBlanks_inlineChars readable _

/-- The fields of a table begin with the key of the first one. -/
theorem exists_inlineFields_eq
    (field : String × Toml)
    (fields : List (String × Toml)) :
    ∃ rest, inlineFields (field :: fields) = keyChars field.1 ++ rest := by
  obtain ⟨key, value⟩ := field
  cases fields with
  | nil => exact ⟨_, List.append_assoc ..⟩
  | cons next fields => exact ⟨_, inlineFields_cons_cons key value next fields⟩

theorem skipBlanks_inlineFields
    (field : String × Toml)
    (fields : List (String × Toml))
    (rest : List Char) :
    skipBlanks (inlineFields (field :: fields) ++ rest) =
      inlineFields (field :: fields) ++ rest := by
  obtain ⟨others, begins⟩ := exists_inlineFields_eq field fields
  rw [begins, List.append_assoc, skipBlanks_keyChars]

/-- No field begins with a closing brace. -/
theorem inlineFields_append_ne
    (field : String × Toml)
    (fields : List (String × Toml))
    (rest behind : List Char) :
    inlineFields (field :: fields) ++ rest ≠ '\x7d' :: behind := by
  obtain ⟨others, same⟩ := exists_inlineFields_eq field fields
  obtain ⟨c, chars, shape, begins⟩ := exists_cons_keyChars field.1
  have notBrace : c ≠ '\x7d' := Text.ne_of_test begins _ rfl
  simp [same, shape, notBrace]

mutual

/-- A value within a line is read back. -/
theorem takeValue_inlineChars
    {value : Toml}
    {depth : Nat}
    (readable : value.Readable depth)
    {fuel : Nat}
    (enough : 2 * (inlineChars value).length < fuel)
    {rest : List Char}
    (ends : EndsValue rest) :
    takeValue assemble fuel depth (inlineChars value ++ rest) = some (value, rest) := by
  -- A value and the list that it stands in take a step each, so two steps a character are enough.
  obtain ⟨fuel, rfl⟩ := Nat.exists_eq_succ_of_ne_zero (Nat.ne_zero_of_lt enough)
  match value, depth, readable with
  | .string text, _, _ =>
      exact takeValue_string text (ends.head?_ne (by decide)) (ends.head?_ne (by decide))
  | .integer whole, depth, readable =>
      have fits : -maxInteger - 1 ≤ whole ∧ whole ≤ maxInteger := by
        simpa [Readable] using readable
      have read := takeNumber_integer fits.1 fits.2 ends
      obtain ⟨c, chars, shape, begins⟩ := exists_toString_cons whole
      rw [shape, List.cons_append] at read
      rw [inlineChars, shape, List.cons_append, takeValue_number begins, read]
  | .bool true, _, _ => rfl
  | .bool false, _, _ => rfl
  | .dateTime text, depth, readable =>
      have isDateTime : IsDateTime text := by simpa [Readable] using readable
      have read := takeNumber_dateTime isDateTime ends
      obtain ⟨c, chars, shape, begins⟩ := isDateTime.exists_cons
      rw [shape, List.cons_append] at read
      rw [inlineChars, shape, List.cons_append, takeValue_number begins, read]
  | .array [], depth + 1, _ =>
      have positive : fuel ≠ 0 := by
        simp [inlineChars, inlineItems] at enough
        omega
      obtain ⟨fuel, rfl⟩ := Nat.exists_eq_succ_of_ne_zero positive
      have bracket : skipLines ((']' :: rest).length + 1) (']' :: rest) = ']' :: rest :=
        skipLines_of_skipBlanks rfl (by decide) _
      have shape : inlineChars (.array []) ++ rest = '[' :: ']' :: rest := rfl
      rw [shape, takeValue, takeItems, bracket]
      rfl
  | .array (item :: items), depth + 1, readable =>
      have readableItems : ReadableItems depth (item :: items) := readable
      have shape : inlineChars (.array (item :: items)) ++ rest =
          '[' :: (inlineItems (item :: items) ++ ']' :: rest) := by
        simp [inlineChars]
      have enoughItems : 2 * (inlineItems (item :: items)).length + 1 < fuel := by
        simp [inlineChars] at enough
        omega
      have read := takeItems_inlineItems (List.cons_ne_nil item items) readableItems enoughItems
        (skipBlanks_inlineItems readableItems.1 items (']' :: rest))
      rw [shape, takeValue]
      simp [read]
  | .table [], depth + 1, _ => rfl
  | .table (field :: fields), depth + 1, readable =>
      have distinct : ((field :: fields).map Prod.fst).Nodup := readable.1
      have readableFields : ReadableFields depth (field :: fields) := readable.2
      have shape : inlineChars (.table (field :: fields)) ++ rest =
          '\x7b' :: ' ' :: (inlineFields (field :: fields) ++ ' ' :: '\x7d' :: rest) := by
        simp [inlineChars]
      have enoughFields : 2 * (inlineFields (field :: fields)).length + 1 < fuel := by
        simp [inlineChars] at enough
        omega
      have starts := skipBlanks_inlineFields field fields (' ' :: '\x7d' :: rest)
      have read := takePairs_inlineFields (List.cons_ne_nil field fields) readableFields
        enoughFields starts
      have blank : skipBlanks (' ' :: (inlineFields (field :: fields) ++ ' ' :: '\x7d' :: rest)) =
          inlineFields (field :: fields) ++ ' ' :: '\x7d' :: rest := starts
      rw [shape, takeValue, blank]
      simp only []
      split
      · next closed => exact absurd closed (inlineFields_append_ne _ _ _ _)
      · simp only [read, Option.bind_eq_bind, Option.bind_some, assemble_map distinct]
        rfl

/-- Items are taken back from their text. -/
theorem takeItems_inlineItems
    {items : List Toml}
    (nonempty : items ≠ [])
    {depth : Nat}
    (readable : ReadableItems depth items)
    {fuel : Nat}
    (enough : 2 * (inlineItems items).length + 1 < fuel)
    {chars rest : List Char}
    (starts : skipBlanks chars = inlineItems items ++ ']' :: rest) :
    takeItems assemble fuel depth chars = some (items, rest) := by
  obtain ⟨fuel, rfl⟩ := Nat.exists_eq_succ_of_ne_zero (Nat.ne_zero_of_lt enough)
  match items with
  | [item] =>
      have enoughItem : 2 * (inlineChars item).length < fuel := by
        simp [inlineItems] at enough
        omega
      exact takeItems_of_bracket readable.1 starts
        (takeValue_inlineChars readable.1 enoughItem (.bracket rest))
  | item :: next :: items =>
      rw [inlineItems_cons_cons] at enough starts
      have enoughItem : 2 * (inlineChars item).length < fuel := by
        simp at enough
        omega
      have enoughItems : 2 * (inlineItems (next :: items)).length + 1 < fuel := by
        simp at enough
        omega
      rw [List.append_assoc, List.cons_append] at starts
      have startsNext : skipBlanks (' ' :: inlineItems (next :: items) ++ ']' :: rest) =
          inlineItems (next :: items) ++ ']' :: rest :=
        skipBlanks_inlineItems readable.2.1 items (']' :: rest)
      have others := takeItems_inlineItems (List.cons_ne_nil next items) readable.2 enoughItems
        startsNext
      rw [takeItems_of_comma readable.1 starts
        (takeValue_inlineChars readable.1 enoughItem (.comma _)), others]
      rfl

/-- Pairs are taken back from the text of fields. -/
theorem takePairs_inlineFields
    {fields : List (String × Toml)}
    (nonempty : fields ≠ [])
    {depth : Nat}
    (readable : ReadableFields depth fields)
    {fuel : Nat}
    (enough : 2 * (inlineFields fields).length + 1 < fuel)
    {chars rest : List Char}
    (starts : skipBlanks chars = inlineFields fields ++ ' ' :: '\x7d' :: rest) :
    takePairs assemble fuel depth chars = some (fields.map plainPair, rest) := by
  obtain ⟨fuel, rfl⟩ := Nat.exists_eq_succ_of_ne_zero (Nat.ne_zero_of_lt enough)
  match fields with
  | [(key, value)] =>
      rw [inlineFields] at enough starts
      have enoughValue : 2 * (inlineChars value).length < fuel := by
        simp at enough
        omega
      rw [List.append_assoc, List.append_assoc] at starts
      exact takePairs_of_brace starts (skipBlanks_inlineChars readable.1 _)
        (takeValue_inlineChars readable.1 enoughValue (.brace rest))
  | (key, value) :: next :: fields =>
      rw [inlineFields_cons_cons] at enough starts
      have enoughValue : 2 * (inlineChars value).length < fuel := by
        simp at enough
        omega
      have enoughFields : 2 * (inlineFields (next :: fields)).length + 1 < fuel := by
        simp at enough
        omega
      rw [List.append_assoc, List.append_assoc, List.append_assoc, List.cons_append] at starts
      have startsNext : skipBlanks (' ' :: inlineFields (next :: fields) ++
          ' ' :: '\x7d' :: rest) = inlineFields (next :: fields) ++ ' ' :: '\x7d' :: rest :=
        skipBlanks_inlineFields next fields _
      have others := takePairs_inlineFields (List.cons_ne_nil next fields) readable.2 enoughFields
        startsNext
      rw [takePairs_of_comma starts (skipBlanks_inlineChars readable.1 _)
        (takeValue_inlineChars readable.1 enoughValue (.comma _)), others]
      rfl

end

end Toml
end Valset
