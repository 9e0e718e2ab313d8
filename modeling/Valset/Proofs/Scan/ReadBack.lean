import Valset.Proofs.Event.Legible
import Valset.Proofs.Scan.Output

/-!
# Records are read back from an output

Whatever texts and values stand in records, an output gives each of them one line, and the lines in
their order are read as the records again.
-/

namespace Valset

namespace EventRecord

/-- A record whose fields are canonical, have whole numbers only, and are not nested too deep. -/
structure Plain (record : EventRecord) : Prop where
  canonical : record.fields.IsCanonical
  whole : ∀ number ∈ record.fields.numbers, number.Exact
  shallow : record.fields.depth < Json.maxDepth

/-- A line that is one line only and is read as a record. It says whether the event was taken back
only where it was. -/
structure StandsOn (record : EventRecord) (line : String) : Prop where
  unbroken : '\n' ∉ line.toList
  read : ∃ fields, Json.parse line = some (.object fields) ∧
    ofJson? (.object fields) = some record ∧
    ("removed" ∈ fields.map (·.1) ↔ record.removed = true)

section Plain

variable
  {record : EventRecord}
  (plain : record.Plain)

include plain

theorem Plain.readable_fields : record.fields.Readable 126 :=
  Json.readable_of_depth_le (Nat.le_of_lt_succ plain.shallow) plain.whole

theorem Plain.legible : record.Legible :=
  legible_of_readable plain.canonical plain.readable_fields

/-- A plain record stands on its line. -/
theorem Plain.standsOn_compact : record.StandsOn record.toJson.compact := by
  have readable := readable_toJson plain.readable_fields
  refine ⟨?_, _, Json.parse_compact readable, ofJson?_toJson plain.canonical, ?_⟩
  · rw [Json.compact, String.toList_ofList]
    intro present
    exact absurd (Json.printable_compactChars readable _ present) (by decide)
  · cases record.removed <;> simp

end Plain

theorem map_ofLine?_lineBytes
    {records : List EventRecord}
    (legible : ∀ record ∈ records, record.Legible) :
    (records.map lineBytes).map ofLine? = records.map some := by
  rw [List.map_map]
  exact List.map_congr_left fun record present => (legible record present).held

end EventRecord

theorem linesOf_eq_ofText (records : List EventRecord) :
    linesOf records = Bytes.ofText (String.join (records.map EventRecord.line)) := by
  simp only [linesOf, Bytes.ofText_eq_flatMap, String.toList_join, List.flatMap_assoc,
    List.flatMap_map]

namespace Scan

/-- The text of an output is made of the lines of the records. -/
theorem Output.textOf_eq_join (records : List EventRecord) :
    textOf records = String.join (records.map EventRecord.line) := by
  let print (printed bytes : Bytes) : Bytes := printed ++ bytes
  obtain ⟨handed, done, bytes⟩ := exists_perform_writeAll print records standardName []
  have joined : handed.foldl print [] = handed.flatten := by
    simpa using @List.foldl_append_eq_append Bytes UInt8 handed id []
  have printed : textOf records =
      (Text.ofUtf8? (perform print (writeAll records standardName) [] []).2).getD "" := rfl
  rw [printed, done, joined, bytes, linesOf_eq_ofText, Text.ofUtf8?_ofText]
  rfl

/-- What is written for plain records, to whatever takes all bytes, is a text of lines. Each record
stands on the line at its place, each line ends with a line break, and there are no further line
breaks, so that the lines of the text are read as the records in their order. -/
theorem records_read_back
    {records : List EventRecord}
    (plain : ∀ record ∈ records, record.Plain) :
    (∀ (σ : Type) (take : σ → Bytes → σ) (name : String) (state : σ),
      ∃ handed : List Bytes,
        Output.perform take (writeAll records name) [] state =
          ((.ok (), []), handed.foldl take state) ∧
        handed.flatten = Bytes.ofText (Output.textOf records)) ∧
    (∃ lines : List String,
      Output.textOf records = String.join (lines.map (· ++ "\n")) ∧
      List.Forall₂ EventRecord.StandsOn records lines) ∧
    (linesFrom [] (Bytes.ofText (Output.textOf records))).map EventRecord.ofLine? =
      records.map some := by
  have bytes : Bytes.ofText (Output.textOf records) = linesOf records := by
    rw [Output.textOf_eq_join, linesOf_eq_ofText]
  refine ⟨fun σ take name state => ?_, ⟨records.map (·.toJson.compact), ?_, ?_⟩, ?_⟩
  · rw [bytes]
    exact Output.exists_perform_writeAll take records name state
  · rw [Output.textOf_eq_join, List.map_map]
    rfl
  · rw [List.forall₂_map_right_iff, List.forall₂_same]
    exact fun record present => (plain record present).standsOn_compact
  · have legible : ∀ record ∈ records, record.Legible :=
      fun record present => (plain record present).legible
    rw [bytes, linesFrom_linesOf legible, EventRecord.map_ofLine?_lineBytes legible]

/-! ## Texts with line breaks -/

/-- Fields with line breaks, quotes and control characters in their texts, for examples. -/
def brokenFields : Json := .object [
  ("first\n", .array [.string "\r\n\x01", .number (.whole (-5)), .object []]),
  ("second\"", .null)]

/-- A record whose name has a line break, for examples. -/
def brokenRecord (removed : Bool) : EventRecord where
  address := .ofNat 1
  blockNumber := 7
  blockHash := .ofNat 2
  transactionHash := .ofNat 3
  logIndex := 0
  event := "two\nlines"
  fields := brokenFields
  removed := removed

theorem isCanonical_brokenFields : brokenFields.IsCanonical := by
  have keys : "first\n" < "second\"" := String.lt_iff_toList_lt.mpr (by decide)
  have items : Json.AllCanonical [.string "\r\n\x01", .number (.whole (-5)), .object []] :=
    ⟨trivial, trivial, ⟨.nil, trivial⟩, trivial⟩
  exact ⟨List.pairwise_pair.mpr keys, items, trivial, trivial⟩

theorem plain_brokenRecord (removed : Bool) : (brokenRecord removed).Plain where
  canonical := isCanonical_brokenFields
  whole := by
    intro number present
    obtain rfl := List.mem_singleton.mp present
    exact ⟨by decide, by decide⟩
  shallow := show brokenFields.depth < Json.maxDepth by decide

/-- Two such records have a line each, and the second one is still a record that was taken back. -/
theorem brokenRecords_read_back :
    (∀ record ∈ [brokenRecord false, brokenRecord true], record.Plain) ∧
    (∃ first second : String,
      Output.textOf [brokenRecord false, brokenRecord true] = first ++ "\n" ++ second ++ "\n" ∧
      (brokenRecord false).StandsOn first ∧ (brokenRecord true).StandsOn second) ∧
    (linesFrom [] (Bytes.ofText (Output.textOf [brokenRecord false, brokenRecord true]))).map
        EventRecord.ofLine? =
      [some (brokenRecord false), some (brokenRecord true)] := by
  have plain : ∀ record ∈ [brokenRecord false, brokenRecord true], record.Plain := by
    intro record present
    rcases List.mem_pair.mp present with rfl | rfl
    · exact plain_brokenRecord false
    · exact plain_brokenRecord true
  obtain ⟨-, ⟨lines, text, stand⟩, read⟩ := records_read_back plain
  refine ⟨plain, ?_, read⟩
  cases stand with
  | @cons _ first _ _ standsFirst rest =>
      cases rest with
      | @cons _ second _ _ standsSecond none =>
          cases none
          refine ⟨first, second, ?_, standsFirst, standsSecond⟩
          rw [text]
          simp [String.join_cons, String.append_assoc]

end Scan
end Valset
