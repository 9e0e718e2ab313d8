import Valset.Event.Record
import Valset.Proofs.Json.Cut
import Valset.Proofs.Text.Utf8

/-!
# Lines of records

Bytes hold the records that are read from their lines, each of which ends with a line break. Behind
a line that was cut off, a further record is not read, for its line begins where the cut one stops.
-/

namespace Valset

/-! ## Lines of bytes -/

/-- The byte that ends a line. -/
def lineBreak : UInt8 := 0x0a

/-- The lines that are ended in bytes; `pending` stands in front of the first one. -/
def linesFrom (pending : Bytes) : Bytes → List Bytes
  | [] => []
  | byte :: rest =>
    if byte = lineBreak then pending :: linesFrom [] rest else linesFrom (pending ++ [byte]) rest

/-- What stands behind the last line break in bytes, or all of them behind `pending`. -/
def pendingFrom (pending : Bytes) : Bytes → Bytes
  | [] => pending
  | byte :: rest =>
    if byte = lineBreak then pendingFrom [] rest else pendingFrom (pending ++ [byte]) rest

@[simp] theorem linesFrom_append (pending first second : Bytes) :
    linesFrom pending (first ++ second) =
      linesFrom pending first ++ linesFrom (pendingFrom pending first) second := by
  induction first generalizing pending with
  | nil => rfl
  | cons byte first inductionHypothesis =>
      rw [List.cons_append, linesFrom, linesFrom, pendingFrom]
      split <;> simp [inductionHypothesis]

@[simp] theorem pendingFrom_append (pending first second : Bytes) :
    pendingFrom pending (first ++ second) =
      pendingFrom (pendingFrom pending first) second := by
  induction first generalizing pending with
  | nil => rfl
  | cons byte first inductionHypothesis =>
      rw [List.cons_append, pendingFrom, pendingFrom]
      split <;> simp [inductionHypothesis]

theorem linesFrom_of_unbroken
    {bytes : Bytes}
    (unbroken : lineBreak ∉ bytes)
    (pending : Bytes) :
    linesFrom pending bytes = [] ∧ pendingFrom pending bytes = pending ++ bytes := by
  induction bytes generalizing pending with
  | nil => exact ⟨rfl, (List.append_nil _).symm⟩
  | cons byte bytes inductionHypothesis =>
      obtain ⟨different, unbrokenRest⟩ := not_or.mp (mt List.mem_cons.mpr unbroken)
      rw [linesFrom, pendingFrom, if_neg (Ne.symm different), if_neg (Ne.symm different)]
      simpa using inductionHypothesis unbrokenRest (pending ++ [byte])

/-- Bytes that end with a line break, if there are any. -/
def EndsLine (bytes : Bytes) : Prop :=
  ∀ byte ∈ bytes.getLast?, byte = lineBreak

instance : DecidablePred EndsLine :=
  fun bytes => inferInstanceAs (Decidable (∀ byte ∈ bytes.getLast?, byte = lineBreak))

theorem pendingFrom_eq_nil_iff {bytes : Bytes} :
    pendingFrom [] bytes = [] ↔ EndsLine bytes := by
  rcases bytes.eq_nil_or_concat with rfl | ⟨front, byte, rfl⟩
  · simp [pendingFrom, EndsLine]
  · rw [List.concat_eq_append, pendingFrom_append, pendingFrom]
    split <;> simp_all [EndsLine, pendingFrom]

/-! ## Records -/

namespace EventRecord

/-- The record that a line holds. -/
def ofLine? (line : Bytes) : Option EventRecord := do
  ofJson? (← Json.parse (← Text.ofUtf8? line))

/-- The line of a record, without its line break. -/
def lineBytes (record : EventRecord) : Bytes :=
  Bytes.ofText record.toJson.compact

/-- A record that its line holds. -/
structure Legible (record : EventRecord) : Prop where
  unbroken : lineBreak ∉ record.lineBytes
  held : ofLine? record.lineBytes = some record

theorem Legible.exists_parse
    {record : EventRecord}
    (legible : record.Legible) :
    ∃ json, Json.parse record.toJson.compact = some json := by
  have held := legible.held
  rw [ofLine?, lineBytes, Text.ofUtf8?_ofText, Option.bind_eq_bind, Option.bind_some] at held
  obtain ⟨json, parsed, -⟩ := Option.bind_eq_some_iff.mp held
  exact ⟨json, parsed⟩

theorem ofText_line (record : EventRecord) :
    Bytes.ofText record.line = record.lineBytes ++ [lineBreak] := by
  have broken : Bytes.ofText "\n" = [lineBreak] := Bytes.ofText_ofList ['\n']
  rw [line, Bytes.ofText_append, broken, lineBytes]

/-- The line of a record begins with the name of its first field. -/
theorem exists_compact_eq (record : EventRecord) :
    ∃ chars, record.toJson.compact.toList = '\x7b' :: '"' :: 'a' :: 'd' :: chars := by
  rw [Json.compact, String.toList_ofList, toJson]
  exact ⟨_, rfl⟩

end EventRecord

/-- The records that bytes hold, one on each line. -/
def recordsIn (bytes : Bytes) : List EventRecord :=
  (linesFrom [] bytes).filterMap EventRecord.ofLine?

/-- The lines of records. -/
def linesOf (records : List EventRecord) : Bytes :=
  records.flatMap fun record => Bytes.ofText record.line

theorem linesFrom_line
    {record : EventRecord}
    (legible : record.Legible)
    (pending : Bytes) :
    linesFrom pending (Bytes.ofText record.line) = [pending ++ record.lineBytes] ∧
      pendingFrom pending (Bytes.ofText record.line) = [] := by
  obtain ⟨lines, left⟩ := linesFrom_of_unbroken legible.unbroken pending
  rw [record.ofText_line, linesFrom_append, pendingFrom_append, lines, left]
  simp [linesFrom, pendingFrom]

/-- Behind a line break, each record has its line. -/
theorem linesFrom_linesOf
    {records : List EventRecord}
    (legible : ∀ record ∈ records, record.Legible) :
    linesFrom [] (linesOf records) = records.map EventRecord.lineBytes := by
  induction records with
  | nil => rfl
  | cons record records inductionHypothesis =>
      obtain ⟨lines, left⟩ := linesFrom_line (legible record List.mem_cons_self) []
      rw [linesOf, List.flatMap_cons, linesFrom_append, lines, left, ← linesOf,
        inductionHypothesis fun other present => legible other (List.mem_cons_of_mem _ present)]
      rfl

theorem filterMap_ofLine?_lineBytes
    {records : List EventRecord}
    (legible : ∀ record ∈ records, record.Legible) :
    (records.map EventRecord.lineBytes).filterMap EventRecord.ofLine? = records := by
  induction records with
  | nil => rfl
  | cons record records inductionHypothesis =>
      rw [List.map_cons, List.filterMap_cons_some (legible record List.mem_cons_self).held,
        inductionHypothesis fun other present => legible other (List.mem_cons_of_mem _ present)]

/-- What a cut text leaves behind its last line break is the front of the line of a record. -/
theorem exists_pending_prefix
    {records : List EventRecord}
    (legible : ∀ record ∈ records, record.Legible)
    {cut : Bytes}
    (prefixed : cut <+: linesOf records)
    (begun : pendingFrom [] cut ≠ []) :
    ∃ record ∈ records, pendingFrom [] cut <+: record.lineBytes := by
  induction records generalizing cut with
  | nil =>
      obtain rfl := List.prefix_nil.mp prefixed
      exact absurd rfl begun
  | cons record records inductionHypothesis =>
      have recordLegible := legible record List.mem_cons_self
      rw [linesOf, List.flatMap_cons, ← linesOf] at prefixed
      rcases List.prefix_or_prefix_of_prefix prefixed (List.prefix_append _ _) with
        within | ⟨rest, rfl⟩
      · rw [record.ofText_line, List.prefix_concat_iff] at within
        rcases within with rfl | within
        · rw [← record.ofText_line, (linesFrom_line recordLegible []).2] at begun
          exact absurd rfl begun
        · have unbroken : lineBreak ∉ cut := fun present =>
            recordLegible.unbroken (within.subset present)
          rw [(linesFrom_of_unbroken unbroken []).2]
          exact ⟨record, List.mem_cons_self, within⟩
      · have restPrefix := (List.prefix_append_right_inj _).mp prefixed
        rw [pendingFrom_append, (linesFrom_line recordLegible []).2] at begun ⊢
        obtain ⟨other, present, otherPrefix⟩ := inductionHypothesis
          (fun other present => legible other (List.mem_cons_of_mem _ present)) restPrefix begun
        exact ⟨other, List.mem_cons_of_mem _ present, otherPrefix⟩

/-- A record is not read from a line that another one has begun. -/
theorem ofLine?_behind_cut
    {old new : EventRecord}
    (oldLegible : old.Legible)
    (newLegible : new.Legible)
    {cut : Bytes}
    (prefixed : cut <+: old.lineBytes)
    (begun : cut ≠ []) :
    EventRecord.ofLine? (cut ++ new.lineBytes) = none := by
  obtain ⟨oldJson, oldParsed⟩ := oldLegible.exists_parse
  obtain ⟨newJson, newParsed⟩ := newLegible.exists_parse
  obtain ⟨oldChars, oldOpens⟩ := old.exists_compact_eq
  obtain ⟨newChars, newOpens⟩ := new.exists_compact_eq
  rw [EventRecord.lineBytes, Bytes.ofText_eq_flatMap] at prefixed
  rw [EventRecord.ofLine?]
  cases decoded : Text.ofUtf8? (cut ++ new.lineBytes) with
  | none => rfl
  | some mixed =>
      have mixedBytes := Text.ofText_of_ofUtf8? decoded
      obtain ⟨rest, newBytes⟩ : ∃ rest, new.lineBytes = 0x7b :: rest := by
        rw [EventRecord.lineBytes, Bytes.ofText_eq_flatMap, newOpens]
        exact ⟨_, rfl⟩
      have valid : mixed.toList.flatMap String.utf8EncodeChar = cut ++ 0x7b :: rest := by
        rw [← Bytes.ofText_eq_flatMap, mixedBytes, newBytes]
      obtain ⟨chars, charsPrefix, rfl⟩ := exists_chars_of_cut prefixed (by decide) valid
      have mixed_eq : mixed = String.ofList (chars ++ new.toJson.compact.toList) := by
        apply Text.ofText_injective
        rw [mixedBytes, Bytes.ofText_ofList, List.flatMap_append, EventRecord.lineBytes,
          Bytes.ofText_eq_flatMap]
      cases chars with
      | nil => exact absurd rfl begun
      | cons c chars =>
          obtain ⟨more, whole⟩ := id charsPrefix
          obtain ⟨rfl, -⟩ := List.cons.inj (whole.trans oldOpens)
          have unread := Json.parse_cut_eq_none charsPrefix oldParsed newOpens newParsed
          rw [← mixed_eq] at unread
          simp [unread]

/-- Behind what is left of cut lines, the first of further records is not read unless the last line
was ended, and all others are read. -/
theorem recordsIn_append_linesOf
    {old new : List EventRecord}
    (oldLegible : ∀ record ∈ old, record.Legible)
    (newLegible : ∀ record ∈ new, record.Legible)
    {cut : Bytes}
    (prefixed : cut <+: linesOf old) :
    recordsIn (cut ++ linesOf new) =
      recordsIn cut ++ if EndsLine cut then new else new.tail := by
  rw [recordsIn, recordsIn, linesFrom_append, List.filterMap_append]
  congr 1
  split
  · rename_i ended
    rw [pendingFrom_eq_nil_iff.mpr ended, linesFrom_linesOf newLegible,
      filterMap_ofLine?_lineBytes newLegible]
  · rename_i notEnded
    have begun := mt pendingFrom_eq_nil_iff.mp notEnded
    cases new with
    | nil => rfl
    | cons first further =>
        have firstLegible := newLegible first List.mem_cons_self
        have furtherLegible : ∀ record ∈ further, record.Legible := fun record present =>
          newLegible record (List.mem_cons_of_mem _ present)
        obtain ⟨record, present, pendingPrefix⟩ := exists_pending_prefix oldLegible prefixed begun
        obtain ⟨lines, left⟩ := linesFrom_line firstLegible (pendingFrom [] cut)
        rw [linesOf, List.flatMap_cons, linesFrom_append, lines, left, ← linesOf,
          linesFrom_linesOf furtherLegible, List.singleton_append,
          List.filterMap_cons_none
            (ofLine?_behind_cut (oldLegible record present) firstLegible pendingPrefix begun),
          filterMap_ofLine?_lineBytes furtherLegible, List.tail_cons]

end Valset
