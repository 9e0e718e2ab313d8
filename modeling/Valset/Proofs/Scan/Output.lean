import Valset.Proofs.Event.Lines
import Valset.Proofs.Files.Tree
import Valset.Proofs.Json.Compact
import Valset.Proofs.Program
import Valset.Proofs.Text.Utf8
import Valset.Scan.OutputFile

/-!
# Outputs that are taken in full

What is handed over by an output, followed by what waits in its buffer, grows by exactly the bytes
that the output is given, whenever they are handed over and whatever takes them. Once the output is
flushed, nothing waits any more, so that a file has grown by the lines of all records.
-/

namespace Valset
namespace Scan

namespace Output

variable {ε σ : Type}

/-- Takes all bytes that are handed over into a state. -/
def accept (take : σ → Bytes → σ) (bytes : Bytes) : StateM σ (Except FileFault Unit) :=
  fun state => (.ok (), take state bytes)

/-- What a step comes to with what waits and a state that takes all bytes. -/
def perform
    (take : σ → Bytes → σ)
    (step : OutputProgram ε Unit)
    (waiting : Bytes)
    (state : σ) : (Except ε Unit × Bytes) × σ :=
  (Program.run (accept take) (step.run.run waiting)).run state

/-- A step succeeds and adds bytes to what waits; some of them are handed over piece by piece. -/
def Adds
    (take : σ → Bytes → σ)
    (step : OutputProgram ε Unit)
    (bytes : Bytes) : Prop :=
  ∀ waiting state, ∃ (handed : List Bytes) (left : Bytes),
    perform take step waiting state = ((.ok (), left), handed.foldl take state) ∧
      handed.flatten ++ left = waiting ++ bytes

variable {take : σ → Bytes → σ}

/-- What two steps in a row come to. -/
theorem perform_bind_of_ok
    {first : OutputProgram ε Unit}
    {next : Unit → OutputProgram ε Unit}
    {waiting left : Bytes}
    {state later : σ}
    (done : perform take first waiting state = ((.ok (), left), later)) :
    perform take (first >>= next) waiting state = perform take (next ()) left later := by
  rw [perform] at done
  refine (Program.run_andThen_run (first.run.run waiting) _ state).trans ?_
  rw [done]
  rfl

/-- Turning faults into errors changes nothing where there is no fault. -/
theorem perform_failWith_of_ok
    {step : OutputProgram FileFault Unit}
    {waiting left : Bytes}
    {state later : σ}
    (done : perform take step waiting state = ((.ok (), left), later))
    (error : FileFault → ScanError) :
    perform take (failWith error step) waiting state = ((.ok (), left), later) := by
  rw [perform] at done
  refine (Program.run_andThen_run (step.run.run waiting) _ state).trans ?_
  rw [done]
  rfl

theorem Adds.pure : Adds take (pure () : OutputProgram ε Unit) [] :=
  fun waiting _ => ⟨[], waiting, rfl, (List.append_nil _).symm⟩

theorem Adds.bind
    {first : OutputProgram ε Unit}
    {next : Unit → OutputProgram ε Unit}
    {firstBytes nextBytes : Bytes}
    (firstAdds : Adds take first firstBytes)
    (nextAdds : Adds take (next ()) nextBytes) :
    Adds take (first >>= next) (firstBytes ++ nextBytes) := by
  intro waiting state
  obtain ⟨early, middle, firstDone, firstSplit⟩ := firstAdds waiting state
  obtain ⟨late, left, nextDone, nextSplit⟩ := nextAdds middle (early.foldl take state)
  refine ⟨early ++ late, left, ?_, ?_⟩
  · rw [perform_bind_of_ok firstDone, nextDone, List.foldl_append]
  · rw [List.flatten_append, List.append_assoc, nextSplit, ← List.append_assoc, firstSplit,
      List.append_assoc]

/-- Steps for the members of a list add their bytes one behind the other. -/
theorem Adds.forM
    {β : Type}
    {step : β → OutputProgram ε Unit}
    {bytes : β → Bytes}
    (adds : ∀ member, Adds take (step member) (bytes member))
    (members : List β) :
    Adds take (members.forM step) (members.flatMap bytes) := by
  induction members with
  | nil => exact .pure
  | cons member members inductionHypothesis =>
      rw [List.flatMap_cons]
      exact (adds member).bind inductionHypothesis

theorem Adds.failWith
    {step : OutputProgram FileFault Unit}
    {bytes : Bytes}
    (adds : Adds take step bytes)
    (error : FileFault → ScanError) :
    Adds take (Output.failWith error step) bytes := by
  intro waiting state
  obtain ⟨handed, left, done, split⟩ := adds waiting state
  exact ⟨handed, left, perform_failWith_of_ok done error, split⟩

/-! ## The buffer -/

theorem perform_deliver
    (bytes waiting : Bytes)
    (state : σ) :
    perform take (deliver bytes) waiting state = ((.ok (), waiting), take state bytes) := rfl

/-- After a flush nothing waits, and what waited before has been handed over. -/
theorem exists_perform_flushBuffer
    (take : σ → Bytes → σ)
    (waiting : Bytes)
    (state : σ) :
    ∃ handed : List Bytes,
      perform take flushBuffer waiting state = ((.ok (), []), handed.foldl take state) ∧
        handed.flatten = waiting := by
  cases waiting with
  | nil => exact ⟨[], rfl, rfl⟩
  | cons byte waiting => exact ⟨[byte :: waiting], rfl, List.flatten_singleton⟩

/-- A piece goes into the buffer, or past it if the buffer could not hold it. -/
def put (piece : Bytes) : OutputProgram FileFault Unit :=
  if capacity ≤ piece.length then deliver piece else modify (· ++ piece)

theorem perform_push
    (piece waiting : Bytes)
    (state : σ) :
    perform take (push piece) waiting state =
      if capacity < waiting.length + piece.length then
        perform take (flushBuffer >>= fun _ => put piece) waiting state
      else perform take (put piece) waiting state := by
  change perform take (if capacity < waiting.length + piece.length then _ else _) waiting state = _
  split <;> rfl

/-- A piece may go past an empty buffer, and past no other one. -/
theorem exists_perform_put
    {piece waiting : Bytes}
    (inOrder : capacity ≤ piece.length → waiting = [])
    (state : σ) :
    ∃ (handed : List Bytes) (left : Bytes),
      perform take (put piece) waiting state = ((.ok (), left), handed.foldl take state) ∧
        handed.flatten ++ left = waiting ++ piece := by
  unfold put
  split
  · rename_i large
    obtain rfl := inOrder large
    exact ⟨[piece], [], perform_deliver piece [] state, by simp⟩
  · exact ⟨[], waiting ++ piece, rfl, rfl⟩

theorem adds_push (piece : Bytes) : Adds take (push piece) piece := by
  intro waiting state
  rw [perform_push]
  split
  · obtain ⟨early, done, earlyBytes⟩ := exists_perform_flushBuffer take waiting state
    obtain ⟨late, left, putDone, split⟩ :=
      @exists_perform_put σ take piece [] (fun _ => rfl) (early.foldl take state)
    refine ⟨early ++ late, left, ?_, ?_⟩
    · rw [perform_bind_of_ok done, putDone, List.foldl_append]
    · rw [List.flatten_append, List.append_assoc, split, earlyBytes, List.nil_append]
  · rename_i fits
    apply exists_perform_put
    intro large
    exact List.length_eq_zero_iff.mp (by omega)

/-! ## Records -/

theorem adds_pushRecord (record : EventRecord) :
    Adds take (pushRecord record) (Bytes.ofText record.toJson.compact) := by
  have bytes_eq : Bytes.ofText record.toJson.compact =
      record.toJson.pieces.flatMap fun piece => Bytes.ofText (String.ofList piece) := by
    rw [Json.compact, Bytes.ofText_ofList, ← Json.flatten_pieces]
    simp only [Bytes.ofText_ofList, List.flatMap_def, List.map_flatten, List.flatten_flatten,
      List.map_map, Function.comp_def]
  rw [bytes_eq]
  exact Adds.forM (fun piece => adds_push _) _

/-- A record is written as its line. -/
theorem adds_write
    (name : String)
    (record : EventRecord) :
    Adds take (write name record) (Bytes.ofText record.line) := by
  rw [EventRecord.ofText_line]
  exact ((adds_pushRecord record).failWith _).bind ((adds_push [lineBreak]).failWith _)

theorem adds_writes
    (take : σ → Bytes → σ)
    (name : String)
    (records : List EventRecord) :
    Adds take (records.forM (write name)) (linesOf records) :=
  Adds.forM (adds_write name) records

end Output

/-- Writes records one after the other and hands everything over. -/
def writeAll (records : List EventRecord) (name : String) : OutputProgram ScanError Unit := do
  records.forM (Output.write name)
  Output.flush name

namespace Output

variable {σ : Type}

/-- Once records are written and flushed, exactly their lines have been handed over. -/
theorem exists_perform_writeAll
    (take : σ → Bytes → σ)
    (records : List EventRecord)
    (name : String)
    (state : σ) :
    ∃ handed : List Bytes,
      perform take (writeAll records name) [] state = ((.ok (), []), handed.foldl take state) ∧
        handed.flatten = linesOf records := by
  obtain ⟨early, waiting, written, split⟩ := adds_writes take name records [] state
  obtain ⟨late, flushed, lateBytes⟩ :=
    exists_perform_flushBuffer take waiting (early.foldl take state)
  refine ⟨early ++ late, ?_, ?_⟩
  · rw [writeAll, perform_bind_of_ok written, flush, perform_failWith_of_ok flushed,
      List.foldl_append]
  · rw [List.flatten_append, lateBytes, split, List.nil_append]

end Output

/-! ## Files -/

/-- Appends bytes to a file. -/
def appendTo (number : Nat) (tree : FileTree) (bytes : Bytes) : FileTree :=
  tree.setContent number (tree.content number ++ bytes)

/-- Bytes that are appended piece by piece stand behind what a file held, and nothing else has
changed in the tree. -/
theorem foldl_appendTo
    (number : Nat)
    (pieces : List Bytes)
    (tree : FileTree) :
    (pieces.foldl (appendTo number) tree).entries = tree.entries ∧
      (pieces.foldl (appendTo number) tree).content number =
        tree.content number ++ pieces.flatten := by
  induction pieces generalizing tree with
  | nil => exact ⟨rfl, (List.append_nil _).symm⟩
  | cons piece pieces inductionHypothesis =>
      obtain ⟨entries, content⟩ := inductionHypothesis (appendTo number tree piece)
      refine ⟨entries, content.trans ?_⟩
      rw [appendTo, FileTree.content_setContent, Function.update_self, List.append_assoc,
        List.flatten_cons]

namespace OutputFile

theorem run_perform
    (path : String)
    (number : Nat)
    (waiting : Bytes)
    (step : String → OutputProgram ScanError Unit)
    (tree : FileTree) :
    (perform ⟨path, .file number, waiting⟩ step).run tree =
      let outcome := Output.perform (appendTo number) (step path) waiting tree
      ((outcome.1.1, ⟨path, .file number, outcome.1.2⟩), outcome.2) := rfl

/-- Opens an output at the end of a file, writes records to it and flushes it; gives the tree
afterwards. -/
def appendAll
    (tree : FileTree)
    (path : String)
    (records : List EventRecord) : Except ScanError FileTree :=
  match openAt tree path with
  | .error error => .error error
  | .ok (output, opened) =>
    match (output.perform (writeAll records)).run opened with
    | ((.ok (), _), later) => .ok later
    | ((.error error, _), _) => .error error

/-- Records that are appended to a file stand behind what it held. -/
theorem exists_appendAll
    {tree : FileTree}
    {path : String}
    {location : Location}
    {prior : Bytes}
    (located : tree.locate path = .ok location)
    (held : tree.standing? location = some (.file prior))
    (records : List EventRecord) :
    ∃ later, appendAll tree path records = .ok later ∧
      later.standing? location = some (.file (prior ++ linesOf records)) := by
  obtain ⟨number, entry, rfl⟩ := FileTree.standing?_eq_file_iff.mp held
  obtain ⟨handed, done, bytes⟩ :=
    Output.exists_perform_writeAll (appendTo number) records path tree
  obtain ⟨entries, content⟩ := foldl_appendTo number handed tree
  rw [bytes] at content
  have opened : tree.openAtEnd path = .ok (.file number, tree) := by
    rw [FileTree.openAtEnd, located]
    simp only [bind, Except.bind, entry]
    rfl
  refine ⟨_, ?_, FileTree.standing?_eq_file_iff.mpr ⟨number, ?_, content⟩⟩
  · rw [appendAll, openAt, opened]
    dsimp only
    rw [run_perform, done]
  · rw [FileTree.entry?, entries]
    exact entry

end OutputFile
end Scan
end Valset
