import Valset.Proofs.Toml.Values

/-!
# Statements of TOML text

The text of a document is read back to one statement for each of its lines. Empty lines above the
headers hold none.
-/

namespace Valset
namespace Toml

/-! ## The statements of a document -/

/-- The pairs of those fields that have no header. -/
def pairStatements (fields : List (String × Toml)) : List Statement :=
  (fields.filter fun field => !hasHeader field.2).map fun field => .pair (plainPair field)

mutual

/-- The statements of a value with a header of its own. -/
def valueStatements (path : List String) (key : String) : Toml → List Statement
  | .table fields =>
    (if showsHeader fields then .table path key :: pairStatements fields else []) ++
      fieldStatements (path ++ [key]) fields
  | .array items => if items.all isTable then itemStatements path key items else []
  | _ => []

/-- The statements of the tables in an array. -/
def itemStatements (path : List String) (key : String) : List Toml → List Statement
  | [] => []
  | .table fields :: rest =>
    .item path key :: pairStatements fields ++ fieldStatements (path ++ [key]) fields ++
      itemStatements path key rest
  | _ :: rest => itemStatements path key rest

/-- The statements of the fields of a table that have headers. -/
def fieldStatements (path : List String) : List (String × Toml) → List Statement
  | [] => []
  | (key, value) :: rest => valueStatements path key value ++ fieldStatements path rest

end

/-- The statements of a table as a document. -/
def documentStatements (fields : List (String × Toml)) : List Statement :=
  pairStatements fields ++ fieldStatements [] fields

/-! ## Lines -/

/-- A text that is read as statements, with enough fuel for its characters. -/
def Reads (chars : List Char) (statements : List Statement) : Prop :=
  ∀ fuel, chars.length < fuel → takeStatements assemble fuel chars = some statements

section Lines

variable
  {rest : List Char}
  {later : List Statement}
  {path : List String}
  {key : String}
  {value : Toml}

theorem reads_nil : Reads [] [] := by
  intro fuel enough
  obtain ⟨fuel, rfl⟩ := Nat.exists_eq_succ_of_ne_zero (Nat.ne_zero_of_lt enough)
  rfl

/-- A line with what it holds stands in front of the lines that follow. -/
theorem Reads.of_takeStatement
    (reads : Reads rest later)
    {chars : List Char}
    {statement : Option Statement}
    (nonempty : chars ≠ [])
    (unblank : skipBlanks chars = chars)
    (shorter : rest.length < chars.length)
    (taken : takeStatement assemble chars = some (statement, rest)) :
    Reads chars (statement.toList ++ later) := by
  intro fuel enough
  obtain ⟨fuel, rfl⟩ := Nat.exists_eq_succ_of_ne_zero (Nat.ne_zero_of_lt enough)
  rw [takeStatements, unblank]
  split
  · exact absurd rfl nonempty
  · simp [taken, reads fuel (by omega)]

theorem takeLineEnd_newline (rest : List Char) : takeLineEnd ('\n' :: rest) = some rest :=
  rfl

/-- An empty line holds no statement. -/
theorem Reads.newline (reads : Reads rest later) : Reads ('\n' :: rest) later :=
  have empty : takeStatement assemble ('\n' :: rest) = some (none, rest) := rfl
  reads.of_takeStatement (List.cons_ne_nil _ _) rfl (Nat.lt_succ_self _) empty

/-- A pair is read back with the end of its line. -/
theorem takePair_fieldLine
    (readable : value.Readable (depthLimit - 1))
    (rest : List Char) :
    takePair assemble (keyChars key ++ (" = ".toList ++ (inlineChars value ++ '\n' :: rest))) =
      some (plainPair (key, value), rest) := by
  have enough : 2 * (inlineChars value).length <
      2 * (inlineChars value ++ '\n' :: rest).length + 2 := by
    rw [List.length_append]
    omega
  have read := takeValue_inlineChars readable enough (.line rest)
  have blank : skipBlanks (' ' :: (inlineChars value ++ '\n' :: rest)) =
      inlineChars value ++ '\n' :: rest := skipBlanks_inlineChars readable _
  rw [takePair, takeKey_of_field (skipBlanks_keyChars key _)]
  simp only [Option.bind_eq_bind, Option.bind_some, takeMark_cons, blank, read,
    takeLineEnd_newline]
  rfl

/-- What begins with a key is a pair. -/
theorem takeStatement_keyChars (key : String) (rest : List Char) :
    takeStatement assemble (keyChars key ++ rest) =
      (takePair assemble (keyChars key ++ rest)).map fun taken =>
        (some (.pair taken.1), taken.2) := by
  obtain ⟨c, chars, shape, begins⟩ := exists_cons_keyChars key
  have differs := Text.ne_of_test begins
  rw [shape, List.cons_append]
  cases taken : takePair assemble (c :: (chars ++ rest)) <;>
    simp [takeStatement, taken, differs '[' rfl, differs '#' rfl, differs '\n' rfl,
      differs '\r' rfl]

/-- The line of a field holds its pair. -/
theorem Reads.fieldLine
    (reads : Reads rest later)
    (readable : value.Readable (depthLimit - 1)) :
    Reads (fieldLine (key, value) ++ rest) (.pair (plainPair (key, value)) :: later) := by
  have shape : Toml.fieldLine (key, value) ++ rest =
      keyChars key ++ (" = ".toList ++ (inlineChars value ++ '\n' :: rest)) := by
    simp [Toml.fieldLine]
  have taken : takeStatement assemble (Toml.fieldLine (key, value) ++ rest) =
      some (some (.pair (plainPair (key, value))), rest) := by
    rw [shape, takeStatement_keyChars, takePair_fieldLine readable]
    rfl
  refine reads.of_takeStatement ?_ ?_ ?_ taken
  · simp [shape]
  · rw [shape, skipBlanks_keyChars]
  · rw [shape]
    simp
    omega

theorem foldlM_takeMark (count : Nat) (mark : Char) (rest : List Char) :
    (List.replicate count mark).foldlM (fun rest mark => takeMark mark rest)
      (List.replicate count mark ++ rest) = some rest := by
  induction count with
  | zero => rfl
  | succ count inductionHypothesis =>
      rw [List.replicate_succ, List.cons_append, List.foldlM_cons, takeMark_cons]
      exact inductionHypothesis

/-- A header is read back with the end of its line. -/
theorem takeHeader_pathChars
    (shallow : path.length + 1 < depthLimit)
    (brackets : Nat)
    (rest : List Char) :
    takeHeader (brackets + 1)
        (pathChars (path ++ [key]) ++ (List.replicate (brackets + 1) ']' ++ '\n' :: rest)) =
      some (path, key, rest) := by
  obtain ⟨first, others, begins⟩ := @exists_pathChars_eq (path ++ [key]) (by simp)
  have starts : ∀ behind, skipBlanks (pathChars (path ++ [key]) ++ behind) =
      pathChars (path ++ [key]) ++ behind := by
    intro behind
    rw [begins, List.append_assoc, skipBlanks_keyChars]
  have bracket : skipBlanks (List.replicate (brackets + 1) ']' ++ '\n' :: rest) =
      List.replicate (brackets + 1) ']' ++ '\n' :: rest := skipBlanks_cons rfl _
  have ends : EndsKey (List.replicate (brackets + 1) ']' ++ '\n' :: rest) :=
    endsKey_cons.mpr rfl
  have undotted : (skipBlanks (List.replicate (brackets + 1) ']' ++ '\n' :: rest)).head? ≠
      some '.' := by
    rw [bracket]
    simp [List.replicate_succ]
  have read := takeKey_of_skipBlanks (starts _) shallow ends undotted
  rw [takeHeader, read, bracket]
  simp only [Option.bind_eq_bind, Option.bind_some, foldlM_takeMark, takeLineEnd_newline]
  rfl

/-- The header of a table. -/
theorem Reads.tableHeader
    (reads : Reads rest later)
    (shallow : path.length + 1 < depthLimit) :
    Reads (tableHeader (path ++ [key]) ++ rest) (.table path key :: later) := by
  have shape : Toml.tableHeader (path ++ [key]) ++ rest =
      '[' :: (pathChars (path ++ [key]) ++ (List.replicate 1 ']' ++ '\n' :: rest)) := by
    simp [Toml.tableHeader]
  have header := @takeHeader_pathChars path key shallow 0 rest
  have single : ∀ behind, pathChars (path ++ [key]) ++ (List.replicate 1 ']' ++ '\n' :: rest) ≠
      '[' :: behind := by
    obtain ⟨first, others, begins⟩ := @exists_pathChars_eq (path ++ [key]) (by simp)
    obtain ⟨c, chars, same, beginsKey⟩ := exists_cons_keyChars first
    have notBracket : c ≠ '[' := Text.ne_of_test beginsKey _ rfl
    simp [begins, same, notBracket]
  have taken : takeStatement assemble (Toml.tableHeader (path ++ [key]) ++ rest) =
      some (some (.table path key), rest) := by
    rw [shape, takeStatement]
    · rw [header]
      rfl
    · rintro behind same
      exact single behind same
  refine reads.of_takeStatement ?_ ?_ ?_ taken
  · simp [shape]
  · rw [shape]
    rfl
  · rw [shape]
    simp
    omega

/-- The header of a table in an array. -/
theorem Reads.itemHeader
    (reads : Reads rest later)
    (shallow : path.length + 1 < depthLimit) :
    Reads (itemHeader (path ++ [key]) ++ rest) (.item path key :: later) := by
  have shape : Toml.itemHeader (path ++ [key]) ++ rest =
      '[' :: '[' :: (pathChars (path ++ [key]) ++ (List.replicate 2 ']' ++ '\n' :: rest)) := by
    simp [Toml.itemHeader, List.replicate]
  have taken : takeStatement assemble (Toml.itemHeader (path ++ [key]) ++ rest) =
      some (some (.item path key), rest) := by
    rw [shape, takeStatement, takeHeader_pathChars shallow 1 rest]
    rfl
  refine reads.of_takeStatement ?_ ?_ ?_ taken
  · simp [shape]
  · rw [shape]
    rfl
  · rw [shape]
    simp
    omega

end Lines

/-! ## Blocks -/

theorem readableFields_iff
    {depth : Nat}
    {fields : List (String × Toml)} :
    ReadableFields depth fields ↔ ∀ field ∈ fields, field.2.Readable depth := by
  induction fields with
  | nil => simp [ReadableFields]
  | cons field fields inductionHypothesis =>
      rw [List.forall_mem_cons, ← inductionHypothesis]
      rfl

/-- Blocks that are read as statements, at the very beginning of a text and behind it. -/
def ReadsBlocks (blocks : List Block) (statements : List Statement) : Prop :=
  ∀ isFirst, Reads (blockChars isFirst blocks) statements

section Blocks

variable
  {depth : Nat}
  {path : List String}
  {key : String}
  {rest : List Char}
  {blocks : List Block}
  {fields : List (String × Toml)}
  {later : List Statement}

theorem readsBlocks_nil : ReadsBlocks [] [] :=
  fun _ => reads_nil

theorem Reads.fieldLines
    (reads : Reads rest later)
    (readable : ∀ field ∈ fields, field.2.Readable (depthLimit - 1)) :
    Reads (fields.flatMap Toml.fieldLine ++ rest)
      (fields.map (fun field => .pair (plainPair field)) ++ later) := by
  induction fields with
  | nil => exact reads
  | cons field fields inductionHypothesis =>
      rw [List.forall_mem_cons] at readable
      rw [List.flatMap_cons, List.append_assoc]
      exact (inductionHypothesis readable.2).fieldLine readable.1

/-- The lines of those fields of a table that have no header hold their pairs. -/
theorem Reads.plainFields
    (reads : Reads rest later)
    (readable : ReadableFields depth fields)
    (shallow : depth < depthLimit) :
    Reads (plainFields fields ++ rest) (pairStatements fields ++ later) :=
  reads.fieldLines fun field present =>
    (readableFields_iff.mp readable field (List.mem_of_mem_filter present)).mono
      (Nat.le_sub_one_of_lt shallow)

/-- A block below a header holds the statement of the header and the pairs of its table. -/
theorem ReadsBlocks.cons
    (reads : ReadsBlocks blocks later)
    {header : List Char}
    {statement : Statement}
    (readsHeader : ∀ {rest later}, Reads rest later → Reads (header ++ rest) (statement :: later))
    (readable : ReadableFields depth fields)
    (shallow : depth < depthLimit) :
    ReadsBlocks (⟨some header, plainFields fields⟩ :: blocks)
      (statement :: pairStatements fields ++ later) := by
  intro isFirst
  have inside := readsHeader ((reads false).plainFields readable shallow)
  cases isFirst with
  | true => simpa [blockChars] using inside
  | false => simpa [blockChars] using inside.newline

end Blocks

mutual

/-- The blocks of a value hold its statements. -/
theorem readsBlocks_valueBlocks
    {path : List String}
    {key : String}
    {value : Toml}
    {depth : Nat}
    (readable : value.Readable depth)
    (shallow : path.length + depth < depthLimit)
    {blocks : List Block}
    {later : List Statement}
    (reads : ReadsBlocks blocks later) :
    ReadsBlocks (valueBlocks (path ++ [key]) value ++ blocks)
      (valueStatements path key value ++ later) := by
  match value, depth, readable with
  | .table fields, depth + 1, readable =>
      have readableFields : ReadableFields depth fields := readable.2
      have inside := readsBlocks_fieldBlocks readableFields
        (by simp; omega : (path ++ [key]).length + depth < depthLimit) reads
      rw [valueBlocks, valueStatements]
      split
      · have header : ∀ {rest later}, Reads rest later →
            Reads (tableHeader (path ++ [key]) ++ rest) (.table path key :: later) :=
          fun reads => reads.tableHeader (by omega)
        simpa using inside.cons header readableFields (by omega)
      · exact inside
  | .array items, depth + 1, readable =>
      rw [valueBlocks, valueStatements]
      split
      · exact readsBlocks_itemBlocks readable (by omega) reads
      · exact reads
  | .string _, _, _ => exact reads
  | .integer _, _, _ => exact reads
  | .bool _, _, _ => exact reads
  | .dateTime _, _, _ => exact reads

theorem readsBlocks_itemBlocks
    {path : List String}
    {key : String}
    {items : List Toml}
    {depth : Nat}
    (readable : ReadableItems depth items)
    (shallow : path.length + 1 + depth < depthLimit)
    {blocks : List Block}
    {later : List Statement}
    (reads : ReadsBlocks blocks later) :
    ReadsBlocks (itemBlocks (path ++ [key]) items ++ blocks)
      (itemStatements path key items ++ later) := by
  match items with
  | [] => exact reads
  | item :: rest =>
      have others := @readsBlocks_itemBlocks path key rest depth readable.2 shallow _ _ reads
      match item, depth, readable.1 with
      | .table fields, depth + 1, readableItem =>
          have readableFields : ReadableFields depth fields := readableItem.2
          have inside := readsBlocks_fieldBlocks readableFields
            (by simp; omega : (path ++ [key]).length + depth < depthLimit) others
          have header : ∀ {rest later}, Reads rest later →
              Reads (itemHeader (path ++ [key]) ++ rest) (.item path key :: later) :=
            fun reads => reads.itemHeader (by omega)
          simpa [itemBlocks, itemStatements] using
            inside.cons header readableFields (by omega)
      | .string _, _, _ => exact others
      | .integer _, _, _ => exact others
      | .bool _, _, _ => exact others
      | .dateTime _, _, _ => exact others
      | .array _, _, _ => exact others

theorem readsBlocks_fieldBlocks
    {path : List String}
    {fields : List (String × Toml)}
    {depth : Nat}
    (readable : ReadableFields depth fields)
    (shallow : path.length + depth < depthLimit)
    {blocks : List Block}
    {later : List Statement}
    (reads : ReadsBlocks blocks later) :
    ReadsBlocks (fieldBlocks path fields ++ blocks) (fieldStatements path fields ++ later) := by
  match fields with
  | [] => exact reads
  | (key, value) :: rest =>
      have others := readsBlocks_fieldBlocks readable.2 shallow reads
      rw [fieldBlocks, fieldStatements, List.append_assoc, List.append_assoc]
      exact readsBlocks_valueBlocks readable.1 shallow others

end

/-- The text of a document is read as its statements. -/
theorem reads_documentChars
    {depth : Nat}
    {fields : List (String × Toml)}
    (readable : ReadableFields depth fields)
    (shallow : depth < depthLimit) :
    Reads (documentChars fields) (documentStatements fields) := by
  have blocks := readsBlocks_fieldBlocks readable
    (by simpa using shallow : ([] : List String).length + depth < depthLimit) readsBlocks_nil
  rw [List.append_nil, List.append_nil] at blocks
  exact (blocks _).plainFields readable shallow

end Toml
end Valset
