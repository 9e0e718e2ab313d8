import Mathlib.Data.List.DropRight
import Valset.Proofs.Json.Tokens

/-!
# JSON values read back from their text

Whatever blanks are put between the tokens of a value, the text is read back to the value, as long
as its numbers are whole and its containers are not nested too deep.
-/

namespace Valset
namespace Json

mutual

/-- A value that is read back inside at most `depth` more containers. -/
def Readable : (depth : Nat) → Json → Prop
  | _, .null => True
  | _, .bool _ => True
  | _, .number value => value.Exact
  | _, .string _ => True
  | 0, .array _ => False
  | depth + 1, .array items => ReadableItems depth items
  | 0, .object _ => False
  | depth + 1, .object fields => ReadableFields depth fields

/-- Items that are read back inside at most `depth` more containers. -/
def ReadableItems : (depth : Nat) → List Json → Prop
  | _, [] => True
  | depth, item :: rest => Readable depth item ∧ ReadableItems depth rest

/-- Fields that are read back inside at most `depth` more containers. -/
def ReadableFields : (depth : Nat) → List (String × Json) → Prop
  | _, [] => True
  | depth, (_, value) :: rest => Readable depth value ∧ ReadableFields depth rest

end

/-- Items are readable if each of them is. -/
theorem readableItems_iff
    {depth : Nat}
    {items : List Json} :
    ReadableItems depth items ↔ ∀ item ∈ items, Readable depth item := by
  induction items with
  | nil => simp [ReadableItems]
  | cons item rest inductionHypothesis => simp [ReadableItems, inductionHypothesis]

/-- Fields are readable if each of their values is. -/
theorem readableFields_iff
    {depth : Nat}
    {fields : List (String × Json)} :
    ReadableFields depth fields ↔ ∀ field ∈ fields, Readable depth field.2 := by
  induction fields with
  | nil => simp [ReadableFields]
  | cons field rest inductionHypothesis => simp [ReadableFields, inductionHypothesis]

/-- A number of 64 bits is readable. -/
theorem readable_ofNat
    {value : Nat}
    (fits : value < 2 ^ 64)
    (depth : Nat) :
    (ofNat value).Readable depth :=
  ⟨by omega, by omega⟩

theorem readable_ofUInt64
    (value : UInt64)
    (depth : Nat) :
    (ofUInt64 value).Readable depth :=
  readable_ofNat value.toNat_lt depth

/-- A list of values that are readable one by one is readable one level further up. -/
theorem readable_map
    {α : Type}
    {depth : Nat}
    {write : α → Json}
    (each : ∀ value, (write value).Readable depth)
    (values : List α) :
    (Json.array (values.map write)).Readable (depth + 1) := by
  refine readableItems_iff.mpr fun item present => ?_
  obtain ⟨value, -, rfl⟩ := List.mem_map.mp present
  exact each value

/-- The blanks of a text: in front of each part of a container at a level, in front of its closing
mark, and behind the colon of a field. -/
structure Layout where
  gap : (level : Nat) → List Char
  space : List Char
  blank_gap : ∀ level, ∀ c ∈ gap level, isSpace c
  blank_space : ∀ c ∈ space, isSpace c

namespace Layout

mutual

/-- The text of a value that stands at a level. -/
def chars (layout : Layout) (level : Nat) : Json → List Char
  | .array [] => ['[', ']']
  | .array items =>
    '[' :: layout.itemChars (level + 1) items ++ layout.gap level ++ [']']
  | .object [] => ['\x7b', '\x7d']
  | .object fields =>
    '\x7b' :: layout.fieldChars (level + 1) fields ++ layout.gap level ++ ['\x7d']
  | .null => "null".toList
  | .bool true => "true".toList
  | .bool false => "false".toList
  | .number value => value.chars
  | .string value => quote value

/-- The texts of items at a level. -/
def itemChars (layout : Layout) (level : Nat) : List Json → List Char
  | [] => []
  | [item] => layout.gap level ++ layout.chars level item
  | item :: rest =>
    layout.gap level ++ layout.chars level item ++ ',' :: layout.itemChars level rest

/-- The texts of fields at a level. -/
def fieldChars (layout : Layout) (level : Nat) : List (String × Json) → List Char
  | [] => []
  | [(key, value)] =>
    layout.gap level ++ quote key ++ ':' :: layout.space ++ layout.chars level value
  | (key, value) :: rest =>
    layout.gap level ++ quote key ++ ':' :: layout.space ++ layout.chars level value ++
      ',' :: layout.fieldChars level rest

end

/-- Each item on a line of its own, and a space behind a colon. -/
def indented : Layout where
  gap := newLine
  space := [' ']
  blank_gap level c present := by
    rcases List.mem_cons.mp present with rfl | inIndentation
    · rfl
    · rw [List.eq_of_mem_replicate inIndentation]
      rfl
  blank_space c present := by
    rw [List.mem_singleton.mp present]
    rfl

mutual

/-- The indented layout is the one in which values are printed with line breaks. -/
theorem chars_indented (level : Nat) (value : Json) :
    indented.chars level value = indentedChars level value := by
  match value with
  | .array [] => rfl
  | .array (item :: rest) =>
      rw [chars, indentedChars, itemChars_indented (level + 1) (item :: rest)]
      · rfl
      · simp
      · simp
  | .object [] => rfl
  | .object (field :: rest) =>
      rw [chars, indentedChars, fieldChars_indented (level + 1) (field :: rest)]
      · rfl
      · simp
      · simp
  | .null => rfl
  | .bool true => rfl
  | .bool false => rfl
  | .number _ => rfl
  | .string _ => rfl

theorem itemChars_indented (level : Nat) (items : List Json) :
    indented.itemChars level items = indentedItems level items := by
  match items with
  | [] => rfl
  | [item] =>
      rw [itemChars, indentedItems, chars_indented level item]
      rfl
  | item :: next :: rest =>
      rw [itemChars, indentedItems, chars_indented level item,
        itemChars_indented level (next :: rest)]
      · rfl
      · simp
      · simp

theorem fieldChars_indented (level : Nat) (fields : List (String × Json)) :
    indented.fieldChars level fields = indentedFields level fields := by
  match fields with
  | [] => rfl
  | [(key, value)] =>
      rw [fieldChars, indentedFields, chars_indented level value]
      simp [indented]
  | (key, value) :: next :: rest =>
      rw [fieldChars, indentedFields, chars_indented level value,
        fieldChars_indented level (next :: rest)]
      · simp [indented]
      · simp
      · simp

end

/-- No blanks at all. -/
def compact : Layout where
  gap _ := []
  space := []
  blank_gap := by simp
  blank_space := by simp

mutual

/-- The compact layout is the one in which values are printed without blanks. -/
theorem chars_compact (level : Nat) (value : Json) :
    compact.chars level value = compactChars value := by
  match value with
  | .array [] => rfl
  | .array (item :: rest) =>
      rw [chars, compactChars, itemChars_compact (level + 1) (item :: rest)]
      · simp [compact]
      · simp
  | .object [] => rfl
  | .object (field :: rest) =>
      rw [chars, compactChars, fieldChars_compact (level + 1) (field :: rest)]
      · simp [compact]
      · simp
  | .null => rfl
  | .bool true => rfl
  | .bool false => rfl
  | .number _ => rfl
  | .string _ => rfl

theorem itemChars_compact (level : Nat) (items : List Json) :
    compact.itemChars level items = compactItems items := by
  match items with
  | [] => rfl
  | [item] =>
      rw [itemChars, compactItems, chars_compact level item]
      rfl
  | item :: next :: rest =>
      rw [itemChars, compactItems, chars_compact level item,
        itemChars_compact level (next :: rest)]
      · rfl
      · simp
      · simp

theorem fieldChars_compact (level : Nat) (fields : List (String × Json)) :
    compact.fieldChars level fields = compactFields fields := by
  match fields with
  | [] => rfl
  | [(key, value)] =>
      rw [fieldChars, compactFields, chars_compact level value]
      simp [compact]
  | (key, value) :: next :: rest =>
      rw [fieldChars, compactFields, chars_compact level value,
        fieldChars_compact level (next :: rest)]
      · simp [compact]
      · simp
      · simp

end

end Layout

/-! ## Blanks -/

/-- Blanks in front are skipped. -/
theorem skipSpace_append_of_blank
    {front : List Char}
    (blank : ∀ c ∈ front, isSpace c)
    (rest : List Char) :
    skipSpace (front ++ rest) = skipSpace rest :=
  List.dropWhile_append_of_pos blank

/-- Nothing is skipped in front of a character that is no blank. -/
theorem skipSpace_cons_of_not_space
    {c : Char}
    (marked : isSpace c = false)
    (rest : List Char) :
    skipSpace (c :: rest) = c :: rest :=
  List.dropWhile_cons_of_neg (by simp [marked])

/-- A mark stands behind the blanks in front of it. -/
theorem skipSpace_append_mark
    {back : List Char}
    (blank : ∀ c ∈ back, isSpace c)
    {mark : Char}
    (marked : isSpace mark = false)
    (rest : List Char) :
    skipSpace (back ++ mark :: rest) = mark :: rest := by
  rw [skipSpace_append_of_blank blank, skipSpace_cons_of_not_space marked]

@[simp] theorem skipSpace_skipSpace (chars : List Char) :
    skipSpace (skipSpace chars) = skipSpace chars :=
  List.dropWhile_idempotent _ _

/-- A number ends at a blank. -/
theorem extendsNumber_of_isSpace
    {c : Char}
    (blank : isSpace c) :
    extendsNumber c = false := by
  simp only [isSpace, Bool.or_eq_true, beq_iff_eq] at blank
  rcases blank with ((rfl | rfl) | rfl) | rfl <;> rfl

/-- Blanks in front of something that does not go on with a number do not go on with it either. -/
theorem Delimits.append_of_blank
    {front rest : List Char}
    (blank : ∀ c ∈ front, isSpace c)
    (delimits : Delimits rest) :
    Delimits (front ++ rest) := by
  cases front with
  | nil => exact delimits
  | cons c front =>
      rw [List.cons_append, delimits_cons]
      exact extendsNumber_of_isSpace (blank c List.mem_cons_self)

/-- Blanks in front of a value do not matter. -/
@[simp] theorem takeValue_skipSpace
    (fuel depth : Nat)
    (chars : List Char) :
    takeValue fuel depth (skipSpace chars) = takeValue fuel depth chars := by
  cases fuel with
  | zero => rfl
  | succ fuel => rw [takeValue, takeValue, skipSpace_skipSpace]

theorem takeValue_append_of_blank
    {front : List Char}
    (blank : ∀ c ∈ front, isSpace c)
    (fuel depth : Nat)
    (rest : List Char) :
    takeValue fuel depth (front ++ rest) = takeValue fuel depth rest := by
  rw [← takeValue_skipSpace, skipSpace_append_of_blank blank, takeValue_skipSpace]

/-- Blanks in front of items do not matter. -/
@[simp] theorem takeItems_skipSpace
    (fuel depth : Nat)
    (chars : List Char) :
    takeItems fuel depth (skipSpace chars) = takeItems fuel depth chars := by
  cases fuel with
  | zero => rfl
  | succ fuel => rw [takeItems, takeItems, takeValue_skipSpace]

/-- Blanks in front of fields do not matter. -/
@[simp] theorem takeFields_skipSpace
    (fuel depth : Nat)
    (chars : List Char) :
    takeFields fuel depth (skipSpace chars) = takeFields fuel depth chars := by
  cases fuel with
  | zero => rfl
  | succ fuel => rw [takeFields, takeFields, skipSpace_skipSpace]

/-! ## Steps of reading -/

theorem isSpace_eq_false_of_beginsNumber
    {c : Char}
    (begins : beginsNumber c) :
    isSpace c = false := by
  have differs := Text.ne_of_test begins
  simp [isSpace, differs ' ' rfl, differs '\n' rfl, differs '\t' rfl,
    differs '\r' rfl]

/-- What begins like a number is taken as one. -/
theorem takeValue_number
    {c : Char}
    (begins : beginsNumber c)
    (fuel depth : Nat)
    (rest : List Char) :
    takeValue (fuel + 1) depth (c :: rest) =
      (takeNumber (c :: rest)).map fun taken => (.number taken.1, taken.2) := by
  have differs := Text.ne_of_test begins
  rw [takeValue, skipSpace_cons_of_not_space (isSpace_eq_false_of_beginsNumber begins)]
  cases taken : takeNumber (c :: rest) <;>
    simp [differs 'n' rfl, differs 't' rfl, differs 'f' rfl,
      differs '"' rfl, differs '[' rfl, differs '\x7b' rfl, taken]

/-- A quoted text is taken up to the quote behind it. -/
theorem takeString_behind_quote
    (text : String)
    (rest : List Char) :
    takeString ((text.toList.flatMap escapeChar ++ '"' :: rest).length + 1)
      (text.toList.flatMap escapeChar ++ '"' :: rest) = some (text.toList, rest) := by
  refine takeString_flatMap_escapeChar ?_ rest
  have := length_le_length_flatMap_escapeChar text.toList
  rw [List.length_append]
  omega

theorem quote_append (text : String) (rest : List Char) :
    quote text ++ rest = '"' :: (text.toList.flatMap escapeChar ++ '"' :: rest) := by
  simp [quote]

theorem takeValue_quote
    (fuel depth : Nat)
    (text : String)
    (rest : List Char) :
    takeValue (fuel + 1) depth (quote text ++ rest) = some (.string text, rest) := by
  rw [quote_append, takeValue, skipSpace_cons_of_not_space rfl]
  simp only [takeString_behind_quote]
  simp

/-- What stands behind an opening bracket is taken as items, unless it is the closing one. -/
theorem takeValue_array
    (fuel depth : Nat)
    {chars : List Char}
    (unclosed : (skipSpace chars).head? ≠ some ']') :
    takeValue (fuel + 1) (depth + 1) ('[' :: chars) =
      (takeItems fuel depth chars).map fun taken => (.array taken.1, taken.2) := by
  rw [takeValue, skipSpace_cons_of_not_space rfl, ← takeItems_skipSpace]
  simp only []
  split
  · rename_i shape
    simp [shape] at unclosed
  · cases taken : takeItems fuel depth (skipSpace chars) <;> simp

/-- What stands behind an opening brace is taken as fields, unless it is the closing one. -/
theorem takeValue_object
    (fuel depth : Nat)
    {chars : List Char}
    (unclosed : (skipSpace chars).head? ≠ some '\x7d') :
    takeValue (fuel + 1) (depth + 1) ('\x7b' :: chars) =
      (takeFields fuel depth chars).map fun taken => (.object taken.1, taken.2) := by
  rw [takeValue, skipSpace_cons_of_not_space rfl, ← takeFields_skipSpace]
  simp only []
  split
  · rename_i shape
    simp [shape] at unclosed
  · cases taken : takeFields fuel depth (skipSpace chars) <;> simp

section Parts

variable
  {fuel depth : Nat}
  {chars middle rest behind : List Char}
  {item : Json}

/-- Behind a comma there are further items. -/
theorem takeItems_of_comma
    (first : takeValue fuel depth chars = some (item, rest))
    (comma : skipSpace rest = ',' :: behind) :
    takeItems (fuel + 1) depth chars =
      (takeItems fuel depth behind).map fun taken => (item :: taken.1, taken.2) := by
  rw [takeItems, first]
  cases taken : takeItems fuel depth behind <;> simp [comma, taken]

/-- A bracket ends the items. -/
theorem takeItems_of_bracket
    (first : takeValue fuel depth chars = some (item, rest))
    (bracket : skipSpace rest = ']' :: behind) :
    takeItems (fuel + 1) depth chars = some ([item], behind) := by
  rw [takeItems, first]
  simp [bracket]

/-- Behind a comma there are further fields. -/
theorem takeFields_of_comma
    {key : String}
    (quoted : skipSpace chars = quote key ++ ':' :: middle)
    (first : takeValue fuel depth middle = some (item, rest))
    (comma : skipSpace rest = ',' :: behind) :
    takeFields (fuel + 1) depth chars =
      (takeFields fuel depth behind).map fun taken => ((key, item) :: taken.1, taken.2) := by
  rw [takeFields, quoted, quote_append]
  simp only [takeString_behind_quote]
  cases taken : takeFields fuel depth behind <;>
    simp [skipSpace_cons_of_not_space, isSpace, first, comma, taken]

/-- A brace ends the fields. -/
theorem takeFields_of_brace
    {key : String}
    (quoted : skipSpace chars = quote key ++ ':' :: middle)
    (first : takeValue fuel depth middle = some (item, rest))
    (brace : skipSpace rest = '\x7d' :: behind) :
    takeFields (fuel + 1) depth chars = some ([(key, item)], behind) := by
  rw [takeFields, quoted, quote_append]
  simp only [takeString_behind_quote]
  simp [skipSpace_cons_of_not_space, isSpace, first, brace]

end Parts

/-! ## Reading back -/

namespace Layout

variable {layout : Layout}

/-- No value begins with a closing bracket. -/
theorem head?_skipSpace_chars_ne
    {depth : Nat}
    {value : Json}
    (readable : value.Readable depth)
    (level : Nat)
    (rest : List Char) :
    (skipSpace (layout.chars level value ++ rest)).head? ≠ some ']' := by
  match value with
  | .null => simp [chars, skipSpace_cons_of_not_space, isSpace]
  | .bool true => simp [chars, skipSpace_cons_of_not_space, isSpace]
  | .bool false => simp [chars, skipSpace_cons_of_not_space, isSpace]
  | .number whole =>
      obtain ⟨c, digits, shape, begins⟩ := exists_cons_of_exact readable
      have notBracket : c ≠ ']' := Text.ne_of_test begins _ rfl
      rw [chars, shape, List.cons_append,
        skipSpace_cons_of_not_space (isSpace_eq_false_of_beginsNumber begins)]
      simp [notBracket]
  | .string text => simp [chars, quote_append, skipSpace_cons_of_not_space, isSpace]
  | .array [] => simp [chars, skipSpace_cons_of_not_space, isSpace]
  | .array (item :: items) => simp [chars, skipSpace_cons_of_not_space, isSpace]
  | .object [] => simp [chars, skipSpace_cons_of_not_space, isSpace]
  | .object (field :: fields) => simp [chars, skipSpace_cons_of_not_space, isSpace]

/-- Items begin like the first of them. -/
theorem head?_skipSpace_itemChars_ne
    {depth : Nat}
    {items : List Json}
    (nonempty : items ≠ [])
    (readable : ReadableItems depth items)
    (level : Nat)
    (rest : List Char) :
    (skipSpace (layout.itemChars level items ++ rest)).head? ≠ some ']' := by
  match items with
  | [item] =>
      rw [itemChars, List.append_assoc, skipSpace_append_of_blank (layout.blank_gap level)]
      exact head?_skipSpace_chars_ne readable.1 level rest
  | item :: next :: items =>
      rw [itemChars, List.append_assoc, List.append_assoc,
        skipSpace_append_of_blank (layout.blank_gap level)]
      · exact head?_skipSpace_chars_ne readable.1 level _
      · simp

/-- Fields that are printed do not begin with the closing brace. -/
theorem head?_skipSpace_fieldChars_ne
    {fields : List (String × Json)}
    (nonempty : fields ≠ [])
    (level : Nat)
    (rest : List Char) :
    (skipSpace (layout.fieldChars level fields ++ rest)).head? ≠ some '\x7d' := by
  match fields with
  | [(key, value)] =>
      simp [fieldChars, skipSpace_append_of_blank (layout.blank_gap level), quote,
        skipSpace_cons_of_not_space, isSpace]
  | (key, value) :: next :: fields =>
      simp [fieldChars, skipSpace_append_of_blank (layout.blank_gap level), quote,
        skipSpace_cons_of_not_space, isSpace]

theorem chars_array_cons
    (level : Nat)
    (item : Json)
    (items : List Json) :
    layout.chars level (.array (item :: items)) =
      '[' :: (layout.itemChars (level + 1) (item :: items) ++ (layout.gap level ++ [']'])) := by
  simp [chars]

theorem chars_object_cons
    (level : Nat)
    (field : String × Json)
    (fields : List (String × Json)) :
    layout.chars level (.object (field :: fields)) =
      '\x7b' :: (layout.fieldChars (level + 1) (field :: fields) ++
        (layout.gap level ++ ['\x7d'])) := by
  simp [chars]

theorem itemChars_cons_cons
    (level : Nat)
    (item next : Json)
    (items : List Json) :
    layout.itemChars level (item :: next :: items) =
      layout.gap level ++
        (layout.chars level item ++ ',' :: layout.itemChars level (next :: items)) :=
  List.append_assoc ..

theorem fieldChars_singleton
    (level : Nat)
    (key : String)
    (value : Json) :
    layout.fieldChars level [(key, value)] =
      layout.gap level ++ (quote key ++ ':' :: (layout.space ++ layout.chars level value)) := by
  simp [fieldChars]

theorem fieldChars_cons_cons
    (level : Nat)
    (key : String)
    (value : Json)
    (next : String × Json)
    (fields : List (String × Json)) :
    layout.fieldChars level ((key, value) :: next :: fields) =
      layout.gap level ++ (quote key ++ ':' :: (layout.space ++
        (layout.chars level value ++ ',' :: layout.fieldChars level (next :: fields)))) := by
  simp [fieldChars]

/-- The key of a field stands behind the gap in front of the field. -/
theorem skipSpace_gap_quote
    (level : Nat)
    (key : String)
    (rest : List Char) :
    skipSpace (layout.gap level ++ (quote key ++ rest)) = quote key ++ rest := by
  rw [skipSpace_append_of_blank (layout.blank_gap level), quote_append]
  exact skipSpace_cons_of_not_space rfl _

mutual

/-- A value is read back from its text. -/
theorem takeValue_chars
    (layout : Layout)
    {value : Json}
    {depth : Nat}
    (readable : value.Readable depth)
    (level : Nat)
    {fuel : Nat}
    (enough : 2 * (layout.chars level value).length < fuel)
    {rest : List Char}
    (delimits : Delimits rest) :
    takeValue fuel depth (layout.chars level value ++ rest) = some (value, rest) := by
  -- A value and the list that it stands in take a step each, so two steps a character are enough.
  obtain ⟨fuel, rfl⟩ := Nat.exists_eq_succ_of_ne_zero (Nat.ne_zero_of_lt enough)
  match value, depth, readable with
  | .null, _, _ => rfl
  | .bool true, _, _ => rfl
  | .bool false, _, _ => rfl
  | .number whole, depth, readable =>
      obtain ⟨c, digits, shape, begins⟩ := exists_cons_of_exact readable
      have read := takeNumber_chars readable delimits
      rw [shape, List.cons_append] at read
      rw [chars, shape, List.cons_append, takeValue_number begins, read]
      rfl
  | .string text, _, _ => exact takeValue_quote fuel _ text rest
  | .array [], depth + 1, _ => rfl
  | .array (item :: items), depth + 1, readable =>
      have readableItems : ReadableItems depth (item :: items) := readable
      rw [chars_array_cons] at enough ⊢
      have enoughItems : 2 * (layout.itemChars (level + 1) (item :: items)).length + 1 < fuel := by
        simp at enough
        omega
      have read := takeItems_itemChars layout (List.cons_ne_nil item items) readableItems
        (level + 1) enoughItems (layout.blank_gap level) rest
      rw [List.cons_append, List.append_assoc, List.append_assoc, List.singleton_append,
        takeValue_array _ _ (head?_skipSpace_itemChars_ne (List.cons_ne_nil item items)
          readableItems _ _), read]
      rfl
  | .object [], depth + 1, _ => rfl
  | .object (field :: fields), depth + 1, readable =>
      have readableFields : ReadableFields depth (field :: fields) := readable
      rw [chars_object_cons] at enough ⊢
      have enoughFields :
          2 * (layout.fieldChars (level + 1) (field :: fields)).length + 1 < fuel := by
        simp at enough
        omega
      have read := takeFields_fieldChars layout (List.cons_ne_nil field fields) readableFields
        (level + 1) enoughFields (layout.blank_gap level) rest
      rw [List.cons_append, List.append_assoc, List.append_assoc, List.singleton_append,
        takeValue_object _ _ (head?_skipSpace_fieldChars_ne (List.cons_ne_nil field fields) _ _),
        read]
      rfl

/-- Items are taken back from their text. -/
theorem takeItems_itemChars
    (layout : Layout)
    {items : List Json}
    (nonempty : items ≠ [])
    {depth : Nat}
    (readable : ReadableItems depth items)
    (level : Nat)
    {fuel : Nat}
    (enough : 2 * (layout.itemChars level items).length + 1 < fuel)
    {back : List Char}
    (blank : ∀ c ∈ back, isSpace c)
    (rest : List Char) :
    takeItems fuel depth (layout.itemChars level items ++ (back ++ ']' :: rest)) =
      some (items, rest) := by
  obtain ⟨fuel, rfl⟩ := Nat.exists_eq_succ_of_ne_zero (Nat.ne_zero_of_lt enough)
  match items with
  | [item] =>
      rw [itemChars] at enough ⊢
      have enoughItem : 2 * (layout.chars level item).length < fuel := by
        simp at enough
        omega
      have delimits : Delimits (back ++ ']' :: rest) :=
        .append_of_blank blank (delimits_cons.mpr rfl)
      rw [List.append_assoc]
      refine takeItems_of_bracket ?_ (skipSpace_append_mark blank rfl rest)
      rw [takeValue_append_of_blank (layout.blank_gap level)]
      exact takeValue_chars layout readable.1 level enoughItem delimits
  | item :: next :: items =>
      rw [itemChars_cons_cons] at enough ⊢
      have enoughItem : 2 * (layout.chars level item).length < fuel := by
        simp at enough
        omega
      have enoughItems : 2 * (layout.itemChars level (next :: items)).length + 1 < fuel := by
        simp at enough
        omega
      have others := takeItems_itemChars layout (List.cons_ne_nil next items) readable.2 level
        enoughItems blank rest
      rw [List.append_assoc, List.append_assoc, List.cons_append,
        takeItems_of_comma ?_ (skipSpace_cons_of_not_space rfl _), others]
      · rfl
      · rw [takeValue_append_of_blank (layout.blank_gap level)]
        exact takeValue_chars layout readable.1 level enoughItem (delimits_cons.mpr rfl)

/-- Fields are taken back from their text. -/
theorem takeFields_fieldChars
    (layout : Layout)
    {fields : List (String × Json)}
    (nonempty : fields ≠ [])
    {depth : Nat}
    (readable : ReadableFields depth fields)
    (level : Nat)
    {fuel : Nat}
    (enough : 2 * (layout.fieldChars level fields).length + 1 < fuel)
    {back : List Char}
    (blank : ∀ c ∈ back, isSpace c)
    (rest : List Char) :
    takeFields fuel depth (layout.fieldChars level fields ++ (back ++ '\x7d' :: rest)) =
      some (fields, rest) := by
  obtain ⟨fuel, rfl⟩ := Nat.exists_eq_succ_of_ne_zero (Nat.ne_zero_of_lt enough)
  match fields with
  | [(key, value)] =>
      rw [fieldChars_singleton] at enough ⊢
      have enoughValue : 2 * (layout.chars level value).length < fuel := by
        simp at enough
        omega
      have delimits : Delimits (back ++ '\x7d' :: rest) :=
        .append_of_blank blank (delimits_cons.mpr rfl)
      rw [List.append_assoc, List.append_assoc, List.cons_append, List.append_assoc]
      refine takeFields_of_brace (skipSpace_gap_quote level key _) ?_
        (skipSpace_append_mark blank rfl rest)
      rw [takeValue_append_of_blank layout.blank_space]
      exact takeValue_chars layout readable.1 level enoughValue delimits
  | (key, value) :: next :: fields =>
      rw [fieldChars_cons_cons] at enough ⊢
      have enoughValue : 2 * (layout.chars level value).length < fuel := by
        simp at enough
        omega
      have enoughFields : 2 * (layout.fieldChars level (next :: fields)).length + 1 < fuel := by
        simp at enough
        omega
      have others := takeFields_fieldChars layout (List.cons_ne_nil next fields) readable.2 level
        enoughFields blank rest
      rw [List.append_assoc, List.append_assoc, List.cons_append, List.append_assoc,
        List.append_assoc, List.cons_append,
        takeFields_of_comma (skipSpace_gap_quote level key _) ?_
          (skipSpace_cons_of_not_space rfl _), others]
      · rfl
      · rw [takeValue_append_of_blank layout.blank_space]
        exact takeValue_chars layout readable.1 level enoughValue (delimits_cons.mpr rfl)

end

/-- A text of a value stands for the value, and so it does with blanks behind it. -/
theorem parse_chars_append
    (layout : Layout)
    {value : Json}
    (readable : value.Readable maxDepth)
    (level : Nat)
    {back : List Char}
    (blank : ∀ c ∈ back, isSpace c) :
    parse (String.ofList (layout.chars level value ++ back)) = some value := by
  have enough : 2 * (layout.chars level value).length <
      2 * (layout.chars level value ++ back).length + 2 := by
    rw [List.length_append]
    omega
  have delimits : Delimits back := by
    simpa using Delimits.append_of_blank blank delimits_nil
  have nothingLeft : skipSpace back = [] := by
    simpa [skipSpace] using skipSpace_append_of_blank blank []
  have read := takeValue_chars layout readable level enough delimits
  simp only [parse, String.toList_ofList, read]
  simp [nothingLeft]

/-- A text of a value stands for the value. -/
theorem parse_chars
    (layout : Layout)
    {value : Json}
    (readable : value.Readable maxDepth)
    (level : Nat) :
    parse (String.ofList (layout.chars level value)) = some value := by
  have read := parse_chars_append layout readable level (List.forall_mem_nil _)
  rwa [List.append_nil] at read

end Layout

/-- A value is read back from its indented form. -/
theorem parse_indented
    {value : Json}
    (readable : value.Readable maxDepth) :
    parse value.indented = some value := by
  rw [indented, ← Layout.chars_indented]
  exact Layout.parse_chars .indented readable 0

/-- A value is read back from its compact form. -/
theorem parse_compact
    {value : Json}
    (readable : value.Readable maxDepth) :
    parse value.compact = some value := by
  rw [compact, ← Layout.chars_compact 0]
  exact Layout.parse_chars .compact readable 0

/-- A quoted text alone is read back. -/
theorem parse_string (text : String) : parse (string text).compact = some (string text) :=
  @parse_compact (.string text) trivial

/-! ## Fields of an indented object -/

/-- A field stands in the text of the fields, with its key in quotes in front of its value. -/
theorem exists_indentedFields_eq
    (level : Nat)
    (fields : List (String × Json))
    (key : String)
    (value : Json)
    (rest : List (String × Json)) :
    ∃ before after, indentedFields level (fields ++ (key, value) :: rest) =
      before ++ (quote key ++ (':' :: ' ' :: (indentedChars level value ++ after))) := by
  induction fields with
  | nil =>
      cases rest with
      | nil => exact ⟨newLine level, [], by simp [indentedFields]⟩
      | cons field rest =>
          exact ⟨newLine level, ',' :: indentedFields level (field :: rest),
            by simp [indentedFields]⟩
  | cons field fields inductionHypothesis =>
      obtain ⟨before, after, behind⟩ := inductionHypothesis
      obtain ⟨next, others, shape⟩ :
          ∃ next others, fields ++ (key, value) :: rest = next :: others :=
        List.exists_cons_of_ne_nil (by simp)
      rw [shape] at behind
      refine ⟨newLine level ++ quote field.1 ++ ':' :: ' ' :: indentedChars level field.2 ++
        ',' :: before, after, ?_⟩
      rw [List.cons_append, shape, indentedFields, behind]
      · simp
      · simp

/-- In the text of an object the text of each field stands behind its key. -/
theorem exists_indented_object_eq
    (fields : List (String × Json))
    (key : String)
    (value : Json)
    (rest : List (String × Json)) :
    ∃ before after, (Json.object (fields ++ (key, value) :: rest)).indented =
      before ++ String.ofList (quote key ++ [':', ' ']) ++
        String.ofList (indentedChars 1 value) ++ after := by
  obtain ⟨before, after, shape⟩ := exists_indentedFields_eq 1 fields key value rest
  refine ⟨String.ofList ('\x7b' :: before), String.ofList (after ++ newLine 0 ++ ['\x7d']), ?_⟩
  rw [indented, indentedChars, shape]
  · rw [← String.ofList_append, ← String.ofList_append, ← String.ofList_append]
    congr 1
    simp
  · simp

end Json
end Valset
