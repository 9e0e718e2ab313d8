import Valset.Proofs.Json.Canonical
import Valset.Proofs.Toml.Drafts

/-!
# TOML tables read back from their text

The text of a table stands for the table, with the fields of all tables in the order of their lines.
The order of fields aside, it is the same table.
-/

namespace Valset
namespace Toml

/-! ## The text of a table -/

/-- A mark of its order begins no statement. -/
theorem takeStatement_orderMark (rest : List Char) :
    takeStatement assemble ('\ufeff' :: rest) = none := by
  have noPart : takeKeyPart ('\ufeff' :: rest) = none := rfl
  have unblank : skipBlanks ('\ufeff' :: rest) = '\ufeff' :: rest := rfl
  simp [takeStatement, takePair, takeKey, takeKeyParts, noPart, unblank]

/-- What is read as statements has no mark of its order in front. -/
theorem Reads.dropOrderMark_eq
    {chars : List Char}
    {statements : List Statement}
    (reads : Reads chars statements) :
    dropOrderMark chars = chars := by
  unfold dropOrderMark
  split
  · next c rest =>
    split
    · next isMark =>
      obtain rfl : c = '\ufeff' := Char.toNat_inj.mp isMark
      have read := reads _ (Nat.lt_succ_self _)
      rw [takeStatements, skipBlanks_cons rfl] at read
      simp [takeStatement_orderMark] at read
    · rfl
  · rfl

/-- The text of a table is read back to its fields in the order of their lines. -/
theorem parse?_documentChars
    {fields : List (String × Toml)}
    {depth : Nat}
    (readable : (Toml.table fields).Readable depth)
    (shallow : depth ≤ depthLimit) :
    parse? (String.ofList (documentChars fields)) =
      some (unheaded fields ++ arrangedTables fields) := by
  obtain ⟨depth, rfl⟩ : ∃ less, depth = less + 1 := by
    cases depth with
    | zero => exact readable.elim
    | succ less => exact ⟨less, rfl⟩
  have reads := reads_documentChars readable.2 shallow
  obtain ⟨last, built⟩ := foldlM_documentStatements readable.1 readable.2
  rw [parse?, String.toList_ofList, reads.dropOrderMark_eq]
  simp only [reads _ (Nat.lt_succ_self _), Option.bind_eq_bind, Option.bind_some, built]
  exact congrArg some (finishFields_fieldNodes fields)

/-- A table that has been written is read back in the order of its lines. -/
theorem parse?_of_print?
    {value : Toml}
    {depth : Nat}
    (readable : value.Readable depth)
    (shallow : depth ≤ depthLimit)
    {text : String}
    (printed : value.print? = some text) :
    (parse? text).map Toml.table = some value.arranged := by
  cases value with
  | table fields =>
      obtain rfl : String.ofList (documentChars fields) = text := Option.some.inj printed
      rw [parse?_documentChars readable shallow, arranged]
      rfl
  | _ => cases printed

/-! ## The same table -/

theorem fieldsToJson_eq_map (fields : List (String × Toml)) :
    fieldsToJson fields = fields.map fun field => (field.1, field.2.toJson) := by
  induction fields with
  | nil => rfl
  | cons field fields inductionHypothesis => rw [fieldsToJson, inductionHypothesis, List.map_cons]

/-- A field as JSON, with its value made canonical. -/
def canonicalField (field : String × Toml) : String × Json :=
  (field.1, field.2.toJson.canonical)

theorem map_canonicalField (fields : List (String × Toml)) :
    (fieldsToJson fields).map Json.canonicalField = fields.map canonicalField := by
  rw [fieldsToJson_eq_map, List.map_map]
  rfl

mutual

/-- The order of fields aside, a value in the order of its lines is the same. -/
theorem canonical_arranged
    {value : Toml}
    {depth : Nat}
    (readable : value.Readable depth) :
    (arranged value).toJson.canonical = value.toJson.canonical := by
  match value, depth, readable with
  | .table fields, depth + 1, readable =>
      have headed := map_canonicalField_arrangedTables readable.2
      have same : ((unheaded fields ++ arrangedTables fields).map canonicalField).Perm
          (fields.map canonicalField) := by
        rw [List.map_append, headed, ← List.map_append]
        exact (unheaded_append_perm fields).map canonicalField
      have distinct : ((fieldsToJson fields).map Prod.fst).Nodup := by
        rw [fieldsToJson_eq_map, List.map_map]
        exact readable.1
      rw [← map_canonicalField, ← map_canonicalField] at same
      rw [arranged, toJson, toJson, Json.canonical, Json.canonical,
        Json.canonicalFields_of_perm distinct same.symm []]
  | .array items, depth + 1, readable =>
      rw [arranged]
      split
      · rw [toJson, toJson, Json.canonical, Json.canonical, canonicalItems_arrangedItems readable]
      · rfl
  | .string _, _, _ => rfl
  | .integer _, _, _ => rfl
  | .bool _, _, _ => rfl
  | .dateTime _, _, _ => rfl

theorem canonicalItems_arrangedItems
    {items : List Toml}
    {depth : Nat}
    (readable : ReadableItems depth items) :
    Json.canonicalItems (itemsToJson (arrangedItems items)) =
      Json.canonicalItems (itemsToJson items) := by
  match items with
  | [] => rfl
  | item :: rest =>
      rw [arrangedItems, itemsToJson, itemsToJson, Json.canonicalItems, Json.canonicalItems,
        canonical_arranged readable.1, canonicalItems_arrangedItems readable.2]

theorem map_canonicalField_arrangedTables
    {fields : List (String × Toml)}
    {depth : Nat}
    (readable : ReadableFields depth fields) :
    (arrangedTables fields).map canonicalField =
      (fields.filter fun field => hasHeader field.2).map canonicalField := by
  match fields with
  | [] => rfl
  | (key, value) :: rest =>
      have others := map_canonicalField_arrangedTables readable.2
      rw [arrangedTables, List.filter_cons]
      split
      · rw [List.map_cons, List.map_cons, others, canonicalField, canonical_arranged readable.1]
        rfl
      · exact others

end

/-! ## JSON values as TOML -/

mutual

/-- The TOML value of a JSON value corresponds to it. -/
theorem toJson_of_ofJson?
    {json : Json}
    {value : Toml}
    (made : ofJson? json = some value) :
    value.toJson = json := by
  match json with
  | .null => cases made
  | .bool _ => exact Option.some.inj made ▸ rfl
  | .number (.whole whole) =>
      rw [ofJson?] at made
      split at made
      · exact Option.some.inj made ▸ rfl
      · cases made
  | .number (.double _) => exact Option.some.inj made ▸ rfl
  | .string _ => exact Option.some.inj made ▸ rfl
  | .array items =>
      simp only [ofJson?, Option.bind_eq_bind, Option.pure_def, Option.bind_eq_some_iff,
        Option.some.injEq] at made
      obtain ⟨values, madeItems, rfl⟩ := made
      rw [toJson, itemsToJson_of_itemsOfJson? madeItems]
  | .object fields =>
      simp only [ofJson?, Option.bind_eq_bind, Option.pure_def, Option.bind_eq_some_iff,
        Option.some.injEq] at made
      obtain ⟨values, madeFields, rfl⟩ := made
      rw [toJson, fieldsToJson_of_fieldsOfJson? madeFields]

theorem itemsToJson_of_itemsOfJson?
    {items : List Json}
    {values : List Toml}
    (made : itemsOfJson? items = some values) :
    itemsToJson values = items := by
  match items with
  | [] => exact Option.some.inj made ▸ rfl
  | item :: rest =>
      simp only [itemsOfJson?, Option.bind_eq_bind, Option.pure_def, Option.bind_eq_some_iff,
        Option.some.injEq] at made
      obtain ⟨value, first, values, others, rfl⟩ := made
      rw [itemsToJson, toJson_of_ofJson? first, itemsToJson_of_itemsOfJson? others]

theorem fieldsToJson_of_fieldsOfJson?
    {fields : List (String × Json)}
    {values : List (String × Toml)}
    (made : fieldsOfJson? fields = some values) :
    fieldsToJson values = fields := by
  match fields with
  | [] => exact Option.some.inj made ▸ rfl
  | (key, json) :: rest =>
      simp only [fieldsOfJson?, Option.bind_eq_bind, Option.pure_def, Option.bind_eq_some_iff,
        Option.some.injEq] at made
      obtain ⟨value, first, values, others, rfl⟩ := made
      rw [fieldsToJson, toJson_of_ofJson? first, fieldsToJson_of_fieldsOfJson? others]

end

end Toml
end Valset
