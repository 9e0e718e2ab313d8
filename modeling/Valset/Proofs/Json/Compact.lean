import Valset.Json.Printer
import Valset.Proofs.Json.RoundTrip

/-!
# Compact JSON text

The pieces in which a value is written out make up its compact form, and a value whose numbers are
whole stands on a single line.
-/

namespace Valset
namespace Json

/-! ## Pieces -/

theorem flatten_stringParts
    (plain chars : List Char) :
    (stringParts plain chars).flatten = plain.reverse ++ chars.flatMap escapeChar := by
  have pending (plain : List Char) :
      (if plain.isEmpty then [] else [plain.reverse]).flatten = plain.reverse := by
    cases plain <;> simp
  induction chars generalizing plain with
  | nil => rw [stringParts, pending, List.flatMap_nil, List.append_nil]
  | cons c rest inductionHypothesis =>
      rw [stringParts, List.flatMap_cons]
      split
      · rw [List.flatten_append, pending, List.flatten_cons, inductionHypothesis, List.reverse_nil,
          List.nil_append]
      · rename_i plainChar
        have itself : escapeChar c = [c] := by simpa [isEscaped] using plainChar
        rw [inductionHypothesis, itself, List.reverse_cons, List.append_assoc]

theorem flatten_quotePieces (text : String) : (quotePieces text).flatten = quote text := by
  simp [quotePieces, quote, flatten_stringParts]

mutual

/-- The pieces of a value make up its compact form. -/
theorem flatten_pieces (value : Json) : (pieces value).flatten = compactChars value := by
  cases value with
  | null => rfl
  | bool value => cases value <;> rfl
  | number value => simp [pieces, compactChars]
  | string value => rw [pieces, compactChars, flatten_quotePieces]
  | array items => simp [pieces, compactChars, flatten_itemPieces items]
  | object fields => simp [pieces, compactChars, flatten_fieldPieces fields]

theorem flatten_itemPieces (items : List Json) :
    (itemPieces items).flatten = compactItems items := by
  match items with
  | [] => rfl
  | [item] => rw [itemPieces, compactItems, flatten_pieces item]
  | item :: second :: rest =>
      simp [itemPieces, compactItems, flatten_pieces item, flatten_itemPieces (second :: rest)]

theorem flatten_fieldPieces (fields : List (String × Json)) :
    (fieldPieces fields).flatten = compactFields fields := by
  match fields with
  | [] => rfl
  | [(key, value)] =>
      simp [fieldPieces, compactFields, flatten_quotePieces, flatten_pieces value]
  | (key, value) :: second :: rest =>
      simp [fieldPieces, compactFields, flatten_quotePieces, flatten_pieces value,
        flatten_fieldPieces (second :: rest)]

end

/-! ## Single lines -/

/-- Characters with no control character among them. -/
def Printable (chars : List Char) : Prop :=
  ∀ c ∈ chars, 0x20 ≤ c.toNat

instance (chars : List Char) : Decidable (Printable chars) :=
  List.decidableBAll (fun c : Char => 0x20 ≤ c.toNat) chars

@[simp] theorem printable_nil : Printable [] := by
  simp [Printable]

@[simp] theorem printable_cons
    {c : Char}
    {chars : List Char} :
    Printable (c :: chars) ↔ 0x20 ≤ c.toNat ∧ Printable chars :=
  List.forall_mem_cons

@[simp] theorem printable_append
    {front back : List Char} :
    Printable (front ++ back) ↔ Printable front ∧ Printable back :=
  List.forall_mem_append

/-- Control characters of a string are escaped. -/
theorem printable_escapeChar (c : Char) : Printable (escapeChar c) := by
  by_cases control : c.toNat < 0x20
  · have number : Char.ofNat c.toNat = c := Char.ofNat_toNat c
    generalize c.toNat = value at control number
    subst number
    interval_cases value <;> decide
  · unfold escapeChar
    split_ifs <;> simp [Nat.not_lt.mp control]

theorem printable_quote (text : String) : Printable (quote text) := by
  have escaped : Printable (text.toList.flatMap escapeChar) := by
    intro d present
    obtain ⟨c, -, inEscape⟩ := List.mem_flatMap.mp present
    exact printable_escapeChar c d inEscape
  simp [quote, escaped]

theorem printable_toDigits (value : Nat) : Printable (Nat.toDigits 10 value) := by
  intro c present
  have digit := Nat.isDigit_of_mem_toDigits (by decide) (by decide) present
  rw [Char.isDigit, Bool.and_eq_true, decide_eq_true_eq] at digit
  exact le_trans (by decide) (UInt32.le_iff_toNat_le.mp digit.1)

theorem printable_chars
    {number : Number}
    (exact : number.Exact) :
    Printable number.chars := by
  rcases number with (value | value) | value
  · rw [chars_whole_ofNat]
    exact printable_toDigits value
  · rw [chars_whole_negSucc, printable_cons]
    exact ⟨by decide, printable_toDigits (value + 1)⟩
  · exact exact.elim

mutual

/-- The compact form of a value whose numbers are whole has no control character. -/
theorem printable_compactChars
    {depth : Nat}
    {value : Json}
    (readable : value.Readable depth) :
    Printable (compactChars value) := by
  match value, depth, readable with
  | .null, _, _ => decide
  | .bool true, _, _ => decide
  | .bool false, _, _ => decide
  | .number value, _, readable => exact printable_chars readable
  | .string value, _, _ => exact printable_quote value
  | .array items, depth + 1, readable =>
      have printable : Printable (compactItems items) := printable_compactItems readable
      simp [compactChars, printable]
  | .object fields, depth + 1, readable =>
      have printable : Printable (compactFields fields) := printable_compactFields readable
      simp [compactChars, printable]

theorem printable_compactItems
    {depth : Nat}
    {items : List Json}
    (readable : ReadableItems depth items) :
    Printable (compactItems items) := by
  match items, readable with
  | [], _ => exact printable_nil
  | [item], readable => exact printable_compactChars readable.1
  | item :: second :: rest, readable =>
      have further : Printable (compactItems (second :: rest)) :=
        printable_compactItems readable.2
      simp [compactItems, printable_compactChars readable.1, further]

theorem printable_compactFields
    {depth : Nat}
    {fields : List (String × Json)}
    (readable : ReadableFields depth fields) :
    Printable (compactFields fields) := by
  match fields, readable with
  | [], _ => exact printable_nil
  | [(key, value)], readable =>
      simp [compactFields, printable_quote, printable_compactChars readable.1]
  | (key, value) :: second :: rest, readable =>
      have further : Printable (compactFields (second :: rest)) :=
        printable_compactFields readable.2
      simp [compactFields, printable_quote, printable_compactChars readable.1, further]

end

end Json
end Valset
