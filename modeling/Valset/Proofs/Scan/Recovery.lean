import Valset.Proofs.Scan.Resumption

/-!
# Recovery from interruptions

A scan catches up with the history of a chain in any number of runs, each of which may be stopped at
any moment. Nothing that the file of the checkpoint counts as complete is missing from the output,
whatever went wrong before. For this the path of the file has to settle, because a run that fails
leaves the directories that it has made; or else no file may be kept at it at all.
-/

namespace Valset
namespace Scan

open Checkpoint (TrackedIn)

/-- A run and what it left behind: what it still had to do when it was stopped, and its surroundings
at that moment. -/
structure RunRecord where
  head : UInt64
  rest : Program SystemDialogue (Except ScanError Unit)
  world : World

/-- Runs one after the other, from some files on. The output of a run begins empty, and each run may
be stopped at any moment. -/
inductive Runs
    (chain : List Log)
    (options : ScanOptions)
    (chainId : UInt64)
    (first : FileTree) : List RunRecord → FileTree → Prop
  | none : Runs chain options chainId first [] first
  | later
      {runs : List RunRecord}
      {files : FileTree}
      (before : Runs chain options chainId first runs files)
      (run : RunRecord)
      (led : (resumed options chainId run.head).Leads (World.moves chain) ⟨files, [], []⟩ run.rest
        run.world) : Runs chain options chainId first (runs ++ [run]) run.world.files

/-- The records that runs have flushed. -/
def flushedBy (runs : List RunRecord) : List EventRecord :=
  runs.flatMap fun run => run.world.flushed

/-- What a scan finds as its checkpoint among files. -/
def persisted
    (options : ScanOptions)
    (chainId : UInt64)
    (files : FileTree) : Except FileError Checkpoint :=
  (files.perform (Checkpoint.load options.checkpoint chainId.toNat).run).1

/-- What runs have come to. The history up to the checkpoint that can be loaded has been flushed,
and no run has left a checkpoint that counted more as complete. -/
structure CaughtUp
    (chain : List Log)
    (options : ScanOptions)
    (chainId : UInt64)
    (runs : List RunRecord)
    (files : FileTree)
    (checkpoint : Checkpoint) : Prop where
  tracked : TrackedIn files options.checkpoint chainId.toNat checkpoint
  within : ∀ block ∈ checkpoint.block, block + 1 < UInt64.size
  complete : (historyBetween chain options.addresses options.startBlock
    (checkpoint.resumeFrom options.startBlock)).Subperm ((flushedBy runs).map some)
  grown : ∀ run ∈ runs, ∀ earlier, persisted options chainId run.world.files = .ok earlier →
    ∀ block, earlier.covers block → checkpoint.covers block

section Runs

variable
  {chain : List Log}
  {options : ScanOptions}
  {chainId : UInt64}
  {runs : List RunRecord}
  {first files : FileTree}
  {checkpoint : Checkpoint}

/-- Before the first run, nothing has been flushed and nothing counts as complete. -/
theorem CaughtUp.none
    (tracked : TrackedIn files options.checkpoint chainId.toNat
      (.empty options.checkpoint chainId.toNat)) :
    CaughtUp chain options chainId [] files (.empty options.checkpoint chainId.toNat) where
  tracked := tracked
  within := nofun
  complete := by
    change (historyBetween _ _ options.startBlock options.startBlock).Subperm _
    rw [historyBetween_eq_nil (Nat.le_refl _)]
    exact List.nil_subperm
  grown := nofun

/-- What one run adds to those before it. -/
theorem CaughtUp.exists_sound
    (caughtUp : CaughtUp chain options chainId runs files checkpoint)
    {run : RunRecord}
    (room : run.head.toNat + pageSize < UInt64.size)
    (led : (resumed options chainId run.head).Leads (World.moves chain) ⟨files, [], []⟩ run.rest
      run.world) :
    (∃ later, Sound chain options chainId (flushedBy runs) checkpoint later run.world) ∧
      (run.rest = .done (.ok ()) →
        (historyBetween chain options.addresses options.startBlock (run.head.toNat + 1)).Subperm
          ((flushedBy (runs ++ [run])).map some)) := by
  have kept := (keeps_resumed room caughtUp.tracked caughtUp.within caughtUp.complete).of_leads led
  refine ⟨kept.always_state, ?_⟩
  intro finished
  rw [finished] at kept
  have ended := kept.2 rfl
  simpa [flushedBy] using ended

theorem CaughtUp.later
    (caughtUp : CaughtUp chain options chainId runs files checkpoint)
    {run : RunRecord}
    {later : Checkpoint}
    (sound : Sound chain options chainId (flushedBy runs) checkpoint later run.world) :
    CaughtUp chain options chainId (runs ++ [run]) run.world.files later where
  tracked := sound.tracked
  within := sound.within
  complete := by simpa [flushedBy] using sound.complete
  grown := by
    intro other present earlier isPersisted block covered
    rcases List.mem_append.mp present with before | last
    · exact sound.grown block (caughtUp.grown other before earlier isPersisted block covered)
    · rw [List.mem_singleton.mp last] at isPersisted
      rwa [← sound.tracked.eq_of_loaded isPersisted]

/-- However often a scan is interrupted, it has caught up with what its checkpoint says. -/
theorem Runs.exists_caughtUp
    (tracked : TrackedIn first options.checkpoint chainId.toNat
      (.empty options.checkpoint chainId.toNat))
    (history : Runs chain options chainId first runs files)
    (room : ∀ run ∈ runs, run.head.toNat + pageSize < UInt64.size) :
    ∃ checkpoint, CaughtUp chain options chainId runs files checkpoint := by
  induction history with
  | none => exact ⟨_, .none tracked⟩
  | later before run led inductionHypothesis =>
      obtain ⟨checkpoint, caughtUp⟩ := inductionHypothesis fun other present =>
        room other (List.mem_append_left _ present)
      obtain ⟨⟨later, sound⟩, -⟩ := caughtUp.exists_sound (room run (by simp)) led
      exact ⟨later, caughtUp.later sound⟩

/-- A run that ends without an error has flushed the history up to its head, together with the runs
before it. -/
theorem Runs.flushed_of_finished
    (tracked : TrackedIn first options.checkpoint chainId.toNat
      (.empty options.checkpoint chainId.toNat))
    (history : Runs chain options chainId first runs files)
    (room : ∀ run ∈ runs, run.head.toNat + pageSize < UInt64.size)
    {before after : List RunRecord}
    {run : RunRecord}
    (division : runs = before ++ run :: after)
    (finished : run.rest = .done (.ok ())) :
    (historyBetween chain options.addresses options.startBlock (run.head.toNat + 1)).Subperm
      ((flushedBy (before ++ [run])).map some) := by
  induction history generalizing after with
  | none => simp at division
  | later earlier last led inductionHypothesis =>
      have roomEarlier := fun other present => room other (List.mem_append_left _ present)
      rcases List.eq_nil_or_concat after with rfl | ⟨inner, final, rfl⟩
      · obtain ⟨rfl, same⟩ := List.append_inj' division rfl
        obtain rfl : last = run := by simpa using same
        obtain ⟨checkpoint, caughtUp⟩ := earlier.exists_caughtUp tracked roomEarlier
        exact (caughtUp.exists_sound (room last (by simp)) led).2 finished
      · rw [List.concat_eq_append, ← List.cons_append, ← List.append_assoc] at division
        exact inductionHypothesis roomEarlier (List.append_inj' division rfl).1

/-- No run writes what the checkpoint counted as complete at the end of an earlier run. -/
theorem Runs.pairwise_above
    (tracked : TrackedIn first options.checkpoint chainId.toNat
      (.empty options.checkpoint chainId.toNat))
    (history : Runs chain options chainId first runs files)
    (room : ∀ run ∈ runs, run.head.toNat + pageSize < UInt64.size) :
    runs.Pairwise fun earlier later =>
      ∀ checkpoint, persisted options chainId earlier.world.files = .ok checkpoint →
        ∀ block ∈ checkpoint.block, ∀ record ∈ later.world.written,
          block < record.blockNumber.toNat := by
  induction history with
  | none => exact .nil
  | later before run led inductionHypothesis =>
      have roomBefore := fun other present => room other (List.mem_append_left _ present)
      obtain ⟨current, caughtUp⟩ := before.exists_caughtUp tracked roomBefore
      obtain ⟨⟨later, sound⟩, -⟩ := caughtUp.exists_sound (room run (by simp)) led
      refine List.pairwise_append.mpr
        ⟨inductionHypothesis roomBefore, List.pairwise_singleton _ _, ?_⟩
      rintro earlier present _ (_ | ⟨_, ⟨⟩⟩) checkpoint isPersisted block stored record written
      by_contra notAbove
      have covers : checkpoint.covers record.blockNumber.toNat := by
        rw [Checkpoint.covers, Option.mem_def.mp stored]
        exact decide_eq_true (Nat.not_lt.mp notAbove)
      have covered := caughtUp.grown earlier present checkpoint isPersisted _ covers
      rw [sound.fresh record written] at covered
      cases covered

/-- A scan recovers from interruptions, wherever its runs are stopped and whatever is refused to
them. It begins without a file for its checkpoint, at a path that settles or that has a name which
is too long for a file, and the heads of its runs leave room for the numbers of blocks. At every
moment the history up to the checkpoint that is found has been flushed, and one is found unless a
name is too long; a run that ends without an error has flushed the history up to its head, together
with the runs before it; and no run writes what the checkpoint counted as complete at the end of an
earlier run. -/
theorem runs_recover
    (sound : first.Sound)
    (noDevice : first.NoStagedDevice)
    (rooted : first.Rooted)
    (reachable : first.Settles options.checkpoint ∨ FileTree.Overlong options.checkpoint)
    (absent : first.read options.checkpoint = .error .notFound)
    (room : ∀ run ∈ runs, run.head.toNat + pageSize < UInt64.size)
    (history : Runs chain options chainId first runs files) :
    ((¬ FileTree.Overlong options.checkpoint →
        ∃ checkpoint, persisted options chainId files = .ok checkpoint) ∧
      ∀ checkpoint, persisted options chainId files = .ok checkpoint →
        ∀ block ∈ checkpoint.block,
          (historyBetween chain options.addresses options.startBlock (block + 1)).Subperm
            ((flushedBy runs).map some)) ∧
      (∀ before run after, runs = before ++ run :: after → run.rest = .done (.ok ()) →
        (historyBetween chain options.addresses options.startBlock (run.head.toNat + 1)).Subperm
          ((flushedBy (before ++ [run])).map some)) ∧
      runs.Pairwise fun earlier later =>
        ∀ checkpoint, persisted options chainId earlier.world.files = .ok checkpoint →
          ∀ block ∈ checkpoint.block, ∀ record ∈ later.world.written,
            block < record.blockNumber.toNat := by
  have tracked : TrackedIn first options.checkpoint chainId.toNat
      (.empty options.checkpoint chainId.toNat) :=
    Checkpoint.trackedIn_of_absent sound noDevice rooted reachable absent _
  refine ⟨?_, fun before run after => history.flushed_of_finished tracked room,
    history.pairwise_above tracked room⟩
  obtain ⟨checkpoint, caughtUp⟩ := history.exists_caughtUp tracked room
  refine ⟨fun short => ⟨checkpoint, ?_⟩, fun found isPersisted block stored => ?_⟩
  · rw [persisted, caughtUp.tracked.perform_load short]
  rw [caughtUp.tracked.eq_of_loaded isPersisted] at stored
  have resumed_eq : checkpoint.resumeFrom options.startBlock =
      max options.startBlock (block + 1) := by
    rw [Checkpoint.resumeFrom, Option.mem_def.mp stored]
    simp only [blockAfter_of_lt (caughtUp.within block stored)]
  have complete := caughtUp.complete
  rw [resumed_eq] at complete
  exact (historyBetween_sublist chain options.addresses options.startBlock
    (Nat.le_max_right _ _)).subperm.trans complete

end Runs

/-! ## Checkpoints that are refused -/

/-- A scan of the contract that the sample logs come from. -/
def recoveryOptions (path : String) : ScanOptions where
  addresses := [.ofNat 1]
  startBlock := 0
  checkpoint := path
  resetCheckpoint := false

/-- The history of a chain with one event has the event from its block on. -/
theorem historyBetween_sample
    (path : String)
    (block : UInt64)
    (beyond : Nat) :
    historyBetween [.sample block 0 false] (recoveryOptions path).addresses 0 beyond =
      if block.toNat < beyond then [some (.sample block 0 false)] else [] := by
  have historic : isHistoric (recoveryOptions path).addresses (.sample block 0 false) := rfl
  have made := @EventRecord.ofLive?_sample 0 (by decide) block false
  by_cases inFront : block.toNat < beyond
  · simp [historyBetween, historic, made, inFront]
  · simp [historyBetween, inFront]

/-- A run without a checkpoint may write and flush the history up to block 5, whatever then comes of
storing this block. -/
theorem leads_resumed
    {path : String}
    {chain : List Log}
    {records : List EventRecord}
    {files after : FileTree}
    {result : Except FileError Unit}
    (whole : records.map some = historyBetween chain (recoveryOptions path).addresses 0 6)
    (absent : files.read path = .error .notFound)
    (stored : (Checkpoint.store ⟨path, 1, none⟩ 5).run.Leads FileTree.truthfulMoves files
      (.done result) after) :
    (resumed (recoveryOptions path) 1 5).Leads (World.moves chain) ⟨files, [], []⟩
      (.done (result.mapError .file)) ⟨after, records, records⟩ := by
  let world : World := ⟨files, [], []⟩
  have page : OnePage (5 : UInt64).toNat (0, 5) :=
    ⟨by decide, by decide, by decide, by decide⟩
  have windows : blockWindows 0 5 pageSize = [(0, 5)] := page.blockWindows_eq
  have loaded : (Checkpoint.load path 1).run.Leads FileTree.truthfulMoves files
      (.done (.ok (.empty path 1))) files := by
    have performed := FileTree.leads_perform_truthfully (Checkpoint.load path 1).run files
    rwa [Checkpoint.perform_load, absent] at performed
  obtain ⟨later, window⟩ := leads_backfillWindow page whole rfl
    (show Program.Leads _ _ world.files _ _ from stored)
  have caughtUp : ((backfill (recoveryOptions path).addresses 0 5).onFiles
      (.empty path 1)).Leads (World.moves chain) world
      (.done (result.mapError .file, later)) ⟨after, records, records⟩ := by
    rw [backfill, windows]
    refine (Scanning.leads_bind window _).trans ?_
    cases result with
    | ok _ => exact .start _ _
    | error _ => exact .start _ _
  rw [resumed_eq]
  refine (leads_inSystem loaded world).andThen_of_done ?_
  exact caughtUp.andThen_of_done (.start _ _)

/-- What is left by one run without a checkpoint. -/
theorem exists_run
    {path : String}
    {chain : List Log}
    {records : List EventRecord}
    {files after : FileTree}
    {result : Except FileError Unit}
    (whole : records.map some = historyBetween chain (recoveryOptions path).addresses 0 6)
    (absent : files.read path = .error .notFound)
    (stored : (Checkpoint.store ⟨path, 1, none⟩ 5).run.Leads FileTree.truthfulMoves files
      (.done result) after) :
    ∃ run, Runs chain (recoveryOptions path) 1 files [run] after ∧ run.head = 5 ∧
      run.rest = .done (result.mapError .file) ∧ run.world.flushed = records :=
  ⟨_, Runs.none.later ⟨5, _, _⟩ (leads_resumed whole absent stored), rfl, rfl, rfl⟩

/-- A run whose checkpoint is refused is repeated as a whole by the next one. -/
theorem refusedCheckpoint_recovers :
    ∃ first second files,
      Runs [.sample 3 0 false] (recoveryOptions "checkpoint.json") 1 FileTree.empty
          [first, second] files ∧
        (∃ cause, first.rest = .done (.error cause)) ∧
        second.rest = .done (.ok ()) ∧ second.head = 5 ∧
        [some (EventRecord.sample 3 0 false)].Subperm ((flushedBy [first, second]).map some) := by
  have whole : [EventRecord.sample 3 0 false].map some = historyBetween [.sample 3 0 false]
      (recoveryOptions "checkpoint.json").addresses 0 6 :=
    (historyBetween_sample "checkpoint.json" 3 6).symm
  have absent : FileTree.empty.read "checkpoint.json" = .error .notFound := by decide +kernel
  have refused : ∃ cause, (Checkpoint.store ⟨"checkpoint.json", 1, none⟩ 5).run.Leads
      FileTree.truthfulMoves FileTree.empty (.done (.error cause)) FileTree.empty := by
    rw [Checkpoint.store, Files.writeJson]
    rcases Files.run_writeText "checkpoint.json" (StoredBlock.toJson ⟨1, 5⟩).indented with
      ⟨-, direct⟩ | ⟨parent, -, throughParent⟩
    · rw [direct]
      exact ⟨_, .turn (.error .noSpace) ⟨.inl rfl, trivial⟩ (.start _ _)⟩
    · rw [throughParent]
      exact ⟨_, .turn (.error .noSpace) ⟨⟨[], List.nil_prefix, rfl⟩, trivial⟩ (.start _ _)⟩
  obtain ⟨cause, refused⟩ := refused
  have written := FileTree.leads_perform_truthfully
    (Checkpoint.store ⟨"checkpoint.json", 1, none⟩ 5).run FileTree.empty
  have succeeds : (FileTree.empty.perform
      (Checkpoint.store ⟨"checkpoint.json", 1, none⟩ 5).run).1 = .ok () := by
    decide +kernel
  rw [succeeds] at written
  obtain ⟨first, attempt, head, failed, -⟩ := exists_run whole absent refused
  have history := attempt.later ⟨5, _, _⟩ (leads_resumed whole absent written)
  refine ⟨_, _, _, history, ⟨_, failed⟩, rfl, rfl, ?_⟩
  have settles : FileTree.empty.Settles "checkpoint.json" := .inl (by decide)
  have flushed : (historyBetween [.sample 3 0 false]
      (recoveryOptions "checkpoint.json").addresses 0 6).Subperm _ :=
    (runs_recover FileTree.sound_empty FileTree.noStagedDevice_empty FileTree.rooted_empty
      (.inl settles) absent (by simp [head]; decide) history).2.1 [_] _ [] rfl rfl
  rwa [← whole] at flushed

/-- Whatever the files are, a scan that begins without a file for its checkpoint has flushed the
history up to the checkpoint that is found. -/
def AlwaysRecovers (path : String) : Prop :=
  ∀ (chain : List Log) (options : ScanOptions) (chainId : UInt64) (first files : FileTree)
    (runs : List RunRecord), options.checkpoint = path →
      first.Sound → first.NoStagedDevice → first.Rooted →
        first.read path = .error .notFound →
          (∀ run ∈ runs, run.head.toNat + pageSize < UInt64.size) →
            Runs chain options chainId first runs files →
              ∀ checkpoint, persisted options chainId files = .ok checkpoint →
                ∀ block ∈ checkpoint.block,
                  (historyBetween chain options.addresses options.startBlock
                    (block + 1)).Subperm ((flushedBy runs).map some)

/-- Files with a checkpoint that is hidden until there is a directory `foo`. -/
def hiddenCheckpoint : FileTree :=
  FileTree.hiddenTree (StoredBlock.toJson ⟨1, 100⟩).indented

/-- The directory that is made before storing a block fails brings another checkpoint to light, and
with it history that was never written. -/
theorem not_alwaysRecovers : ¬ AlwaysRecovers "foo/../bar" := by
  intro always
  obtain ⟨sound, noDevice, rooted⟩ : hiddenCheckpoint.Sound ∧ hiddenCheckpoint.NoStagedDevice ∧
      hiddenCheckpoint.Rooted := FileTree.wellFormed_hiddenTree _
  have absent : hiddenCheckpoint.read "foo/../bar" = .error .notFound := by decide +kernel
  have whole : ([] : List EventRecord).map some =
      historyBetween [.sample 50 0 false] (recoveryOptions "foo/../bar").addresses 0 6 :=
    (historyBetween_sample "foo/../bar" 50 6).symm
  obtain ⟨run, history, head, -, unflushed⟩ := exists_run whole absent
    (FileTree.leads_perform_truthfully (Checkpoint.store ⟨"foo/../bar", 1, none⟩ 5).run
      hiddenCheckpoint)
  have room : ∀ other ∈ [run], other.head.toNat + pageSize < UInt64.size := by
    simp [head]
    decide
  have found : persisted (recoveryOptions "foo/../bar") 1 (hiddenCheckpoint.perform
      (Checkpoint.store ⟨"foo/../bar", 1, none⟩ 5).run).2 = .ok ⟨"foo/../bar", 1, some 100⟩ := by
    decide +kernel
  have flushed := always _ (recoveryOptions "foo/../bar") _ _ _ _ rfl sound noDevice rooted absent
    room history _ found 100 rfl
  have unwritten : historyBetween [.sample 50 0 false] (recoveryOptions "foo/../bar").addresses 0
      101 = [some (.sample 50 0 false)] := historyBetween_sample "foo/../bar" 50 101
  rw [flushedBy, List.flatMap_singleton, unflushed] at flushed
  cases (List.subperm_nil.mp flushed).symm.trans unwritten

end Scan
end Valset
