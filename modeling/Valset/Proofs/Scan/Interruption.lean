import Valset.Proofs.Scan.CatchingUp
import Valset.Proofs.Scan.CheckpointFile

/-!
# Scans that may be interrupted

A scan with its checkpoint in a file, a node that knows one chain of logs, and an output. Each of
them may refuse anything, and the scan may be stopped at any moment, also while the file is written.
-/

namespace Valset
namespace Scan

variable {α β : Type}

/-- Conversations of a scan that keeps its checkpoint in a file. -/
def SystemDialogue : Dialogue where
  Question := ScanQuestion ⊕ FileQuestion
  Answer
    | .inl question => question.Reply
    | .inr question => question.Reply

/-- A program that uses files as a part of a scan. -/
def inSystem (program : Program FileDialogue α) : Program SystemDialogue α :=
  program.embed Sum.inr fun _ reply => reply

/-- Questions for the checkpoint are answered by its file. -/
def throughFiles :
    (question : ScanDialogue.Question) → Program SystemDialogue (ScanDialogue.Answer question)
  | .load path chain => inSystem (Checkpoint.load path chain).run
  | .store checkpoint block => inSystem (checkpoint.store block).run
  | question => .ask (.inl question : SystemDialogue.Question) fun reply => .done reply

/-- What surrounds a scan: the files, the records that the output has taken, and those of them that
it had taken when it was last flushed. -/
structure World where
  files : FileTree
  written : List EventRecord
  flushed : List EventRecord

namespace World

/-- The same surroundings once the output has taken records. -/
def write (world : World) (records : List EventRecord) : World :=
  { world with written := world.written ++ records }

@[simp] theorem write_write (world : World) (first second : List EventRecord) :
    (world.write first).write second = world.write (first ++ second) := by
  simp [write]

@[simp] theorem write_nil (world : World) : world.write [] = world := by
  simp [write]

/-- The same surroundings once the output has been flushed. -/
def flush (world : World) : World :=
  { world with flushed := world.written }

/-- The same surroundings with other files. -/
def withFiles (world : World) (files : FileTree) : World :=
  { world with files }

/-- How the surroundings may answer. A node that answers a question for logs gives those of its
chain that are asked for, and only a file that is not there is said not to be there. -/
def moves (chain : List Log) : Moves SystemDialogue World
  | .inl (.node (.logs filter)), reply, before, after =>
    after = before ∧ ∀ found : List Log, reply = .ok found → found = chain.filter filter.selects
  | .inl (.write record), .ok (), before, after => after = before.write [record]
  | .inl .flush, .ok (), before, after => after = before.flush
  | .inl _, _, before, after => after = before
  | .inr question, reply, before, after =>
    ∃ files, FileTree.truthfulMoves question reply before.files files ∧
      after = before.withFiles files

end World

/-- A step of a scan that keeps its checkpoint in a file, from the checkpoint with which it starts.
-/
def Scanning.onFiles
    (step : Scanning α)
    (checkpoint : Checkpoint) :
    Program SystemDialogue (Except ScanError α × Checkpoint) :=
  (step.started checkpoint).run throughFiles

/-- A step keeps one property at every moment, and another one holds when it ends without an error.
-/
def Scanning.Secures
    (chain : List Log)
    (always : World → Prop)
    (step : Scanning α)
    (checkpoint : Checkpoint)
    (world : World)
    (goal : α → Checkpoint → World → Prop) : Prop :=
  (step.onFiles checkpoint).Keeps (World.moves chain) always
    (fun outcome after => ∀ value, outcome.1 = .ok value → goal value outcome.2 after) world

section Rules

variable
  {chain : List Log}
  {always : World → Prop}
  {checkpoint : Checkpoint}
  {world : World}

/-- A step whose result is there already. -/
theorem Scanning.secures_of_started_done
    {step : Scanning α}
    {goal : α → Checkpoint → World → Prop}
    {outcome : Except ScanError α}
    {later : Checkpoint}
    (silent : step.started checkpoint = .done (outcome, later))
    (holds : always world)
    (reached : ∀ value, outcome = .ok value → goal value later world) :
    step.Secures chain always checkpoint world goal := by
  rw [Secures, onFiles, silent]
  exact ⟨holds, reached⟩

/-- Two steps in a row secure what the second one secures after the first one. -/
theorem Scanning.Secures.bind
    {step : Scanning α}
    {next : α → Scanning β}
    {middle : α → Checkpoint → World → Prop}
    {goal : β → Checkpoint → World → Prop}
    (first : step.Secures chain always checkpoint world middle)
    (second : ∀ value later after, always after → middle value later after →
      (next value).Secures chain always later after goal) :
    (step >>= next).Secures chain always checkpoint world goal := by
  rw [Secures, onFiles, started_bind, Program.run_andThen]
  refine first.andThen ?_
  rintro ⟨cause | value, later⟩ after holds reached
  · exact ⟨holds, by simp⟩
  · exact second value later after holds (reached value rfl)

theorem secures_performAll_nil
    {goal : Unit → Checkpoint → World → Prop}
    (holds : always world)
    (reached : goal () checkpoint world) :
    (performAll []).Secures chain always checkpoint world goal :=
  Scanning.secures_of_started_done rfl holds fun _ _ => reached

theorem secures_performAll_write
    {goal : Unit → Checkpoint → World → Prop}
    {record : EventRecord}
    {actions : List ScanAction}
    (holds : always world)
    (others : (performAll actions).Secures chain always checkpoint (world.write [record]) goal) :
    (performAll (.write (some record) :: actions)).Secures chain always checkpoint world goal := by
  rw [Scanning.Secures, Scanning.onFiles, performAll_cons, ScanAction.started_write]
  refine ⟨holds, ?_⟩
  rintro (cause | _) after moved
  · obtain rfl : after = world := moved
    exact ⟨holds, by simp⟩
  · obtain rfl : after = world.write [record] := moved
    exact others

/-- Without a record to write there is nothing but the error. -/
theorem secures_performAll_broken
    {goal : Unit → Checkpoint → World → Prop}
    (holds : always world)
    (actions : List ScanAction) :
    (performAll (.write none :: actions)).Secures chain always checkpoint world goal := by
  rw [Scanning.Secures, Scanning.onFiles, performAll_cons]
  exact ⟨holds, nofun⟩

theorem secures_performAll_flush
    {goal : Unit → Checkpoint → World → Prop}
    {actions : List ScanAction}
    (holds : always world)
    (others : (performAll actions).Secures chain always checkpoint world.flush goal) :
    (performAll (.flush :: actions)).Secures chain always checkpoint world goal := by
  rw [Scanning.Secures, Scanning.onFiles, performAll_cons, ScanAction.started_flush]
  refine ⟨holds, ?_⟩
  rintro (cause | _) after moved
  · obtain rfl : after = world := moved
    exact ⟨holds, by simp⟩
  · obtain rfl : after = world.flush := moved
    exact others

/-- A file program does to the files what it does, and leaves the output alone. -/
theorem keeps_inSystem
    {program : Program FileDialogue α}
    {atEnd : α → World → Prop}
    (kept : program.Keeps FileTree.truthfulMoves (fun files => always (world.withFiles files))
      (fun result files => atEnd result (world.withFiles files)) world.files) :
    (inSystem program).Keeps (World.moves chain) always atEnd world := by
  have simulated : ∀ question reply before after,
      World.moves chain (.inr question) reply (world.withFiles before) after →
        ∃ left, FileTree.truthfulMoves question reply before left ∧
          after = world.withFiles left := by
    rintro question reply before after ⟨files, moved, rfl⟩
    exact ⟨files, moved, rfl⟩
  exact Program.Keeps.embed simulated kept

/-- A file program may be led on in a scan as it may be by itself. -/
theorem leads_inSystem
    {program rest : Program FileDialogue α}
    {files after : FileTree}
    (led : program.Leads FileTree.truthfulMoves files rest after)
    (world : World) :
    (inSystem program).Leads (World.moves chain) (world.withFiles files) (inSystem rest)
      (world.withFiles after) := by
  unfold inSystem
  refine Program.Leads.embed ?_ led
  rintro question answer before last moved
  exact ⟨answer, rfl, last, moved, rfl⟩

/-- While a block is declared complete, what can be loaded is the checkpoint as it was before or as
it is afterwards. -/
theorem secures_performAll_advance
    {goal : Unit → Checkpoint → World → Prop}
    {path : String}
    {chainId block : Nat}
    {actions : List ScanAction}
    (chainFits : chainId < 2 ^ 64)
    (blockFits : block < 2 ^ 64)
    (tracked : Checkpoint.TrackedIn world.files path chainId checkpoint)
    (holds : ∀ files, Checkpoint.TrackedIn files path chainId checkpoint →
      always (world.withFiles files))
    (others : ∀ files, Checkpoint.TrackedIn files path chainId (checkpoint.completed block) →
      (performAll actions).Secures chain always (checkpoint.completed block)
        (world.withFiles files) goal) :
    (performAll (.advance block :: actions)).Secures chain always checkpoint world goal := by
  rw [Scanning.Secures, Scanning.onFiles, performAll_cons]
  by_cases covered : checkpoint.covers block
  · rw [Checkpoint.completed, if_pos covered] at others
    rw [ScanAction.started_advance_of_covers covered]
    exact others world.files tracked
  · rw [Checkpoint.completed, if_neg covered] at others
    rw [ScanAction.started_advance_of_not_covers (by simpa using covered)]
    have kept := (tracked.keeps_store chainFits blockFits).restrict
      fun _ _ _ _ (moved : FileTree.truthfulMoves _ _ _ _) => moved.1
    have stored : (inSystem (checkpoint.store block).run).Keeps (World.moves chain) always
        (fun reply after => reply = .ok () →
          (performAll actions).Secures chain always { checkpoint with block := some block } after
            goal) world := by
      refine keeps_inSystem (kept.mono ?_ ?_)
      · rintro files (before | complete)
        · exact holds files before
        · exact (others files complete).always_state
      · intro reply files _ complete ended
        exact others files (complete ended)
    refine stored.andThen ?_
    rintro (cause | _) after holdsAfter goesOn
    · exact ⟨holdsAfter, by simp⟩
    · exact goesOn rfl

/-- A node that answers a question for a window gives the events of the logs that are asked for. -/
theorem secures_fetchEvents
    {addresses : List Address}
    {head : Nat}
    {window : Nat × Nat}
    (page : OnePage head window)
    {goal : List LiveEvent → Checkpoint → World → Prop}
    (holds : always world)
    (reached : goal ((chain.filter (logsOf addresses window).selects).filterMap historicEvent?)
      checkpoint world) :
    Scanning.Secures chain always (ofOperation (fetchEvents addresses window.1 window.2)).scanning
      checkpoint world goal := by
  rw [Scanning.Secures, Scanning.onFiles, page.started_fetchEvents]
  refine ⟨holds, ?_⟩
  rintro (cause | logs) after ⟨unchanged, sound⟩
  · obtain rfl := unchanged
    exact ⟨holds, by simp⟩
  · obtain rfl := unchanged
    obtain rfl := sound logs rfl
    refine ⟨holds, fun value ended => ?_⟩
    injection ended with ended
    rw [← ended]
    exact reached

/-- The records of a window are written one after the other, up to one that could not be made. -/
theorem secures_performAll_reports
    {goal : Unit → Checkpoint → World → Prop}
    {reports : List (Option EventRecord)}
    {actions : List ScanAction}
    (writing : ∀ records, records.map some <+: reports → always (world.write records))
    (others : ∀ records, records.map some = reports →
      (performAll actions).Secures chain always checkpoint (world.write records) goal) :
    (performAll (reports.map .write ++ actions)).Secures chain always checkpoint world goal := by
  induction reports generalizing world with
  | nil => simpa using others [] rfl
  | cons report reports inductionHypothesis =>
      have holds : always world := by simpa using writing [] List.nil_prefix
      cases report with
      | none => exact secures_performAll_broken holds _
      | some record =>
          refine secures_performAll_write holds (inductionHypothesis ?_ ?_)
          · intro records inFront
            simpa using writing (record :: records) (List.cons_prefix_cons.mpr ⟨rfl, inFront⟩)
          · intro records whole
            simpa using others (record :: records) (congrArg (some record :: ·) whole)

/-! ### Scans that go on -/

/-- A scan that is led to the outcome of a step goes on with what it does after that. -/
theorem Scanning.leads_bind
    {step : Scanning α}
    {outcome : Except ScanError α × Checkpoint}
    {between : World}
    (first : (step.onFiles checkpoint).Leads (World.moves chain) world (.done outcome) between)
    (next : α → Scanning β) :
    (Scanning.onFiles (step >>= next) checkpoint).Leads (World.moves chain) world
      ((afterOutcome next outcome).run throughFiles) between := by
  rw [onFiles, started_bind, Program.run_andThen]
  exact first.andThen _

/-- An output may take all records of a window. -/
theorem leads_performAll_writes
    (world : World)
    (records : List EventRecord)
    (actions : List ScanAction) :
    ((performAll ((records.map some).map .write ++ actions)).onFiles checkpoint).Leads
      (World.moves chain) world ((performAll actions).onFiles checkpoint)
      (world.write records) := by
  induction records generalizing world with
  | nil => simpa using Program.Leads.start _ _
  | cons record records inductionHypothesis =>
      rw [Scanning.onFiles, List.map_cons, List.map_cons, List.cons_append, performAll_cons,
        ScanAction.started_write]
      have others := inductionHypothesis (world.write [record])
      rw [World.write_write, List.singleton_append] at others
      exact .turn (.ok ()) rfl others

end Rules

end Scan
end Valset
