import Valset.Proofs.Event.Legible
import Valset.Proofs.Event.Place
import Valset.Proofs.Scan.Output

/-!
# Records appended behind an interrupted run

An output that is opened at the end of a file puts its first record wherever the file stops. Where
an interrupted run has left a line without its end, that record shares the line and is lost to every
reader; all further ones stand on lines of their own.
-/

namespace Valset
namespace Scan
namespace OutputFile

/-- Where a file holds a front of the lines of earlier records, appending further ones succeeds and
changes nothing that was there. Afterwards the file holds the records that it held and all further
ones but the first, which it holds as well exactly if the front ends with a whole line. -/
theorem appended_readable_iff
    {tree : FileTree}
    {path : String}
    {location : Location}
    {old new : List EventRecord}
    {prior : Bytes}
    (located : tree.locate path = .ok location)
    (held : tree.standing? location = some (.file prior))
    (oldLegible : ∀ record ∈ old, record.Legible)
    (newLegible : ∀ record ∈ new, record.Legible)
    (prefixed : prior <+: linesOf old) :
    ∃ later content, appendAll tree path new = .ok later ∧
      later.standing? location = some (.file content) ∧
      content = prior ++ linesOf new ∧
      recordsIn content = recordsIn prior ++ (if EndsLine prior then new else new.tail) ∧
      (recordsIn content = recordsIn prior ++ new ↔ EndsLine prior ∨ new = []) := by
  obtain ⟨later, done, stands⟩ := exists_appendAll located held new
  have records := recordsIn_append_linesOf oldLegible newLegible prefixed
  refine ⟨later, prior ++ linesOf new, done, stands, rfl, records, ?_⟩
  rw [records, List.append_cancel_left_eq]
  split
  · rename_i ended
    simp [ended]
  · rename_i notEnded
    cases new with
    | nil => simp
    | cons first further => simp [notEnded]

/-! ## A run behind a line that has only begun -/

/-- The record of a registration in a block, for examples. -/
def sampleRecord (block : UInt64) : EventRecord :=
  .sample block 0 false

theorem legible_sampleRecord (block : UInt64) : (sampleRecord block).Legible :=
  EventRecord.legible_of_ofLive? (LiveEvent.ofLog?_sample block 0 false)
    (EventRecord.ofLive?_sample (by decide) block false)

/-- The place of the output of an example. -/
def samplePlace : Location := ["work", "events.jsonl"]

/-- A tree with an output whose first line has only begun. -/
def sampleTree : FileTree :=
  FileTree.empty.addFile samplePlace [0x7b]

theorem locate_sampleTree : sampleTree.locate "events.jsonl" = .ok samplePlace := by
  rfl

theorem standing?_sampleTree : sampleTree.standing? samplePlace = some (.file [0x7b]) := by
  rfl

theorem not_endsLine_brace : ¬EndsLine [0x7b] := by
  simp [EndsLine, lineBreak]

/-- The line of a record begins with a brace. -/
theorem brace_prefix_linesOf (record : EventRecord) (further : List EventRecord) :
    [0x7b] <+: linesOf (record :: further) := by
  obtain ⟨chars, opens⟩ := record.exists_compact_eq
  rw [linesOf, List.flatMap_cons, record.ofText_line, EventRecord.lineBytes,
    Bytes.ofText_eq_flatMap, opens]
  exact ⟨_, rfl⟩

/-- Of two records that are appended behind a brace, the second one is found. -/
theorem sampleRecords_appended :
    ∃ later content,
      appendAll sampleTree "events.jsonl" [sampleRecord 1, sampleRecord 2] = .ok later ∧
        later.standing? samplePlace = some (.file content) ∧
        recordsIn content = [sampleRecord 2] := by
  obtain ⟨later, content, done, stands, -, records, -⟩ :=
    appended_readable_iff locate_sampleTree standing?_sampleTree
      (List.forall_mem_singleton.mpr (legible_sampleRecord 1))
      (fun record present => by
        rcases List.mem_pair.mp present with rfl | rfl
        · exact legible_sampleRecord 1
        · exact legible_sampleRecord 2)
      (brace_prefix_linesOf (sampleRecord 1) [])
  rw [if_neg not_endsLine_brace] at records
  exact ⟨later, content, done, stands, records⟩

/-- A record that is appended behind a brace which an interrupted run has left is not found in the
file. -/
theorem sampleRecord_lost :
    [0x7b] <+: linesOf [sampleRecord 1] ∧
      ∃ later content, appendAll sampleTree "events.jsonl" [sampleRecord 2] = .ok later ∧
        later.standing? samplePlace = some (.file content) ∧
        sampleRecord 2 ∉ recordsIn content := by
  have prefixed := brace_prefix_linesOf (sampleRecord 1) []
  obtain ⟨later, done, stands⟩ :=
    exists_appendAll locate_sampleTree standing?_sampleTree [sampleRecord 2]
  have records := recordsIn_append_linesOf
    (List.forall_mem_singleton.mpr (legible_sampleRecord 1))
    (List.forall_mem_singleton.mpr (legible_sampleRecord 2)) prefixed
  refine ⟨prefixed, later, _, done, stands, ?_⟩
  rw [records, if_neg not_endsLine_brace]
  exact List.not_mem_nil

end OutputFile
end Scan
end Valset
