import Mathlib.Data.List.Perm.Subperm
import Valset.Proofs.Scan.Interruption
import Valset.Scan.Scanner

/-!
# Resuming a scan

A run of a scan loads the checkpoint and catches up with the history behind it. A block becomes the
checkpoint only after all events up to it have been flushed, so the checkpoint never runs ahead of
the output, and nothing that it counts as complete is written again.
-/

namespace Valset
namespace Scan

/-! ## Records of the history -/

/-- Whether the history of some contracts has a log: one of theirs that was not taken back. -/
def isHistoric (addresses : List Address) (log : Log) : Bool :=
  !log.removed && LogFilter.selects ⟨some addresses, [], none, none⟩ log

/-- The records that the history of some contracts has from a block on and in front of another one,
as far as they can be made. -/
def historyBetween
    (chain : List Log)
    (addresses : List Address)
    (first beyond : Nat) : List (Option EventRecord) :=
  ((chain.filter fun log => isHistoric addresses log && first ≤ log.blockNumber.toNat &&
    log.blockNumber.toNat < beyond).filterMap LiveEvent.ofLog?).map EventRecord.ofLive?

section History

variable
  {chain : List Log}
  {addresses : List Address}
  {first middle beyond : Nat}

/-- No record of the history is in front of its first block. -/
theorem le_blockNumber_of_mem_historyBetween
    {record : EventRecord}
    (present : some record ∈ historyBetween chain addresses first beyond) :
    first ≤ record.blockNumber.toNat := by
  obtain ⟨live, decodable, recorded⟩ := List.mem_map.mp present
  obtain ⟨log, inRange, decoded⟩ := List.mem_filterMap.mp decodable
  obtain ⟨event, _, rfl⟩ := Option.map_eq_some_iff.mp decoded
  rw [EventRecord.blockNumber_of_ofLive? recorded]
  have kept := (List.mem_filter.mp inRange).2
  simp only [Bool.and_eq_true, decide_eq_true_eq] at kept
  exact kept.1.2

/-- There is no history between blocks that do not ascend. -/
theorem historyBetween_eq_nil
    (empty : beyond ≤ first) :
    historyBetween chain addresses first beyond = [] := by
  have none : chain.filter (fun log => isHistoric addresses log &&
      first ≤ log.blockNumber.toNat && log.blockNumber.toNat < beyond) = [] := by
    refine List.filter_eq_nil_iff.mpr fun log _ => ?_
    simp
    omega
  rw [historyBetween, none, List.filterMap_nil, List.map_nil]

/-- The records of a range of blocks are those of its two parts. -/
theorem historyBetween_perm
    (chain : List Log)
    (addresses : List Address)
    (firstLe : first ≤ middle)
    (middleLe : middle ≤ beyond) :
    (historyBetween chain addresses first middle ++
      historyBetween chain addresses middle beyond).Perm
        (historyBetween chain addresses first beyond) := by
  have halves := List.filter_append_perm (fun log : Log => log.blockNumber.toNat < middle)
    (chain.filter fun log => isHistoric addresses log && first ≤ log.blockNumber.toNat &&
      log.blockNumber.toNat < beyond)
  rw [List.filter_filter, List.filter_filter] at halves
  have front : chain.filter (fun log => decide (log.blockNumber.toNat < middle) &&
      (isHistoric addresses log && first ≤ log.blockNumber.toNat &&
        log.blockNumber.toNat < beyond)) =
      chain.filter fun log => isHistoric addresses log && first ≤ log.blockNumber.toNat &&
        log.blockNumber.toNat < middle := by
    refine List.filter_congr fun log _ => ?_
    cases isHistoric addresses log with
    | false => simp
    | true =>
        rw [Bool.eq_iff_iff]
        simp
        omega
  have back : chain.filter (fun log => !decide (log.blockNumber.toNat < middle) &&
      (isHistoric addresses log && first ≤ log.blockNumber.toNat &&
        log.blockNumber.toNat < beyond)) =
      chain.filter fun log => isHistoric addresses log && middle ≤ log.blockNumber.toNat &&
        log.blockNumber.toNat < beyond := by
    refine List.filter_congr fun log _ => ?_
    cases isHistoric addresses log with
    | false => simp
    | true =>
        rw [Bool.eq_iff_iff]
        simp
        omega
  rw [front, back] at halves
  have reports := (halves.filterMap LiveEvent.ofLog?).map EventRecord.ofLive?
  rwa [List.filterMap_append, List.map_append] at reports

/-- The history in front of a block has no more than what is in front of a later one. -/
theorem historyBetween_sublist
    (chain : List Log)
    (addresses : List Address)
    (first : Nat)
    (middleLe : middle ≤ beyond) :
    (historyBetween chain addresses first middle).Sublist
      (historyBetween chain addresses first beyond) := by
  refine ((List.monotone_filter_right chain fun log kept => ?_).filterMap _).map _
  simp only [Bool.and_eq_true, decide_eq_true_eq] at kept ⊢
  exact ⟨kept.1, by omega⟩

/-- A standing log has the record of its event in the history, and one that was taken back has
none. -/
theorem map_ofEvent?_historicEvent? (log : Log) :
    (historicEvent? log).map (fun live => EventRecord.ofEvent? live.event live.log) =
      if log.removed then none else (LiveEvent.ofLog? log).map EventRecord.ofLive? := by
  by_cases removed : log.removed
  · have takenBack : historicEvent? log = none := by
      rw [historicEvent?, LiveEvent.ofLog?]
      cases Event.ofLog? log <;> simp [LiveEvent.removed, removed]
    rw [takenBack, if_pos removed, Option.map_none]
  · rw [if_neg removed, historicEvent?_map_ofEvent? (by simpa using removed)]

/-- The events of a window have the records that the history has for it. -/
theorem map_ofEvent?_window
    (chain : List Log)
    (addresses : List Address)
    {head last : Nat}
    (page : OnePage head (first, last)) :
    ((chain.filter (logsOf addresses (first, last)).selects).filterMap historicEvent?).map
        (fun live => EventRecord.ofEvent? live.event live.log) =
      historyBetween chain addresses first (last + 1) := by
  have inOrder : first ≤ last := page.inOrder
  have below : last ≤ head := page.below
  have room := page.room
  have firstEq : (UInt64.ofNat first).toNat = first := UInt64.toNat_ofNat_of_lt' (by omega)
  have lastEq : (UInt64.ofNat last).toNat = last := UInt64.toNat_ofNat_of_lt' (by omega)
  rw [List.map_filterMap, historyBetween, List.map_filterMap, List.filterMap_filter,
    List.filterMap_filter]
  refine List.filterMap_congr fun log _ => ?_
  rw [map_ofEvent?_historicEvent?]
  have selected : (logsOf addresses (first, last)).selects log =
      (LogFilter.selects ⟨some addresses, [], none, none⟩ log &&
        first ≤ log.blockNumber.toNat && log.blockNumber.toNat ≤ last) := by
    simp [LogFilter.selects, logsOf, UInt64.le_iff_toNat_le, firstEq, lastEq]
  simp only [selected, isHistoric, Nat.lt_succ_iff]
  cases log.removed <;> simp

end History

/-! ## What one run keeps -/

section Resume

variable
  {checkpoint : Checkpoint}
  {block : Nat}

/-- A scan goes on behind the block that was completed, or where it went on before. -/
theorem Checkpoint.resumeFrom_completed
    (within : ∀ current ∈ checkpoint.block, current + 1 < UInt64.size)
    (room : block + 1 < UInt64.size)
    (start : Nat) :
    (checkpoint.completed block).resumeFrom start =
      max (checkpoint.resumeFrom start) (block + 1) := by
  rcases checkpoint with ⟨path, chain, _ | current⟩
  · simp [completed, covers, resumeFrom, room]
  · have next := blockAfter_of_lt (within current rfl)
    by_cases covered : block ≤ current
    · simp [completed, covers, covered, resumeFrom, next]
    · have behind : current ≤ block := by omega
      simp [completed, covers, covered, resumeFrom, next, room, behind]

theorem Checkpoint.start_le_resumeFrom (checkpoint : Checkpoint) (start : Nat) :
    start ≤ checkpoint.resumeFrom start := by
  rcases checkpoint with ⟨path, chain, _ | last⟩
  · exact Nat.le_refl _
  · exact Nat.le_max_left _ _

/-- A scan goes on behind all blocks that are covered. -/
theorem Checkpoint.lt_resumeFrom_of_covers
    (within : ∀ current ∈ checkpoint.block, current + 1 < UInt64.size)
    (covered : checkpoint.covers block)
    (start : Nat) :
    block < checkpoint.resumeFrom start := by
  rcases checkpoint with ⟨path, chain, _ | last⟩
  · simp [covers] at covered
  · have behind : block ≤ last := by simpa [covers] using covered
    have next := blockAfter_of_lt (within last rfl)
    simp [resumeFrom, next]
    omega

end Resume

/-- What holds at every moment of a run, once the run has a checkpoint. No other one can be loaded;
the history up to the checkpoint has been flushed, by an earlier run or by this one; and this run
has written nothing that the checkpoint with which it started counted as complete. -/
structure Sound
    (chain : List Log)
    (options : ScanOptions)
    (chainId : UInt64)
    (earlier : List EventRecord)
    (initial checkpoint : Checkpoint)
    (world : World) : Prop where
  tracked : Checkpoint.TrackedIn world.files options.checkpoint chainId.toNat checkpoint
  within : ∀ block ∈ checkpoint.block, block + 1 < UInt64.size
  grown : ∀ block, initial.covers block → checkpoint.covers block
  complete : (historyBetween chain options.addresses options.startBlock
    (checkpoint.resumeFrom options.startBlock)).Subperm ((earlier ++ world.flushed).map some)
  fresh : ∀ record ∈ world.written, initial.covers record.blockNumber.toNat = false

/-- What holds between two windows. All that was written is flushed, and with it the history in
front of a block. -/
structure Reached
    (chain : List Log)
    (options : ScanOptions)
    (chainId : UInt64)
    (earlier : List EventRecord)
    (initial : Checkpoint)
    (beyond : Nat)
    (checkpoint : Checkpoint)
    (world : World) : Prop
    extends Sound chain options chainId earlier initial checkpoint world where
  settled : world.flushed = world.written
  reached : (historyBetween chain options.addresses options.startBlock beyond).Subperm
    ((earlier ++ world.flushed).map some)

section Run

variable
  {chain : List Log}
  {options : ScanOptions}
  {chainId head : UInt64}
  {earlier records : List EventRecord}
  {initial checkpoint : Checkpoint}
  {world : World}
  {first last : Nat}

/-- Writing records that are not covered keeps a run sound. -/
theorem Sound.write
    (sound : Sound chain options chainId earlier initial checkpoint world)
    (fresh : ∀ record ∈ records, initial.covers record.blockNumber.toNat = false) :
    Sound chain options chainId earlier initial checkpoint (world.write records) := {
  sound with
  fresh := fun record present =>
    (List.mem_append.mp present).elim (sound.fresh record) (fresh record) }

/-- Other files of the same checkpoint keep a run sound. -/
theorem Sound.withFiles
    (sound : Sound chain options chainId earlier initial checkpoint world)
    {files : FileTree}
    (tracked : Checkpoint.TrackedIn files options.checkpoint chainId.toNat checkpoint) :
    Sound chain options chainId earlier initial checkpoint (world.withFiles files) :=
  { sound with tracked := tracked }

/-- A flush takes the history to the end of the window whose records were written. -/
theorem Reached.flush
    (reached : Reached chain options chainId earlier initial first checkpoint world)
    (startLe : options.startBlock ≤ first)
    (firstLe : first ≤ last + 1)
    (whole : records.map some = historyBetween chain options.addresses first (last + 1))
    (fresh : ∀ record ∈ records, initial.covers record.blockNumber.toNat = false) :
    Reached chain options chainId earlier initial (last + 1) checkpoint
      (world.write records).flush := by
  have flushed : (world.write records).flush.flushed = world.flushed ++ records := by
    rw [reached.settled]
    rfl
  have further : (historyBetween chain options.addresses options.startBlock (last + 1)).Subperm
      ((earlier ++ (world.flushed ++ records)).map some) := by
    rw [← List.append_assoc, List.map_append, whole]
    exact (historyBetween_perm chain options.addresses startLe firstLe).symm.subperm.trans
      ((List.subperm_append_right _).mpr reached.reached)
  exact {
    reached.toSound.write fresh with
    complete := by
      rw [flushed, ← List.append_assoc, List.map_append]
      exact reached.complete.trans (List.sublist_append_left _ _).subperm
    settled := rfl
    reached := flushed ▸ further }

/-- A window that is declared complete stays flushed. -/
theorem Reached.advance
    (reached : Reached chain options chainId earlier initial (last + 1) checkpoint world)
    (room : last + 1 < UInt64.size)
    {files : FileTree}
    (tracked : Checkpoint.TrackedIn files options.checkpoint chainId.toNat
      (checkpoint.completed last)) :
    Reached chain options chainId earlier initial (last + 1) (checkpoint.completed last)
      (world.withFiles files) where
  tracked := tracked
  within := by
    rw [Checkpoint.completed]
    split
    · exact reached.within
    · rintro block ⟨⟩
      exact room
  grown block covered := Checkpoint.covers_completed_iff.mpr (.inl (reached.grown block covered))
  complete := by
    rw [Checkpoint.resumeFrom_completed reached.within room]
    -- A checkpoint ahead of the window does not move, and what is behind it stays flushed.
    rcases Nat.le_total (checkpoint.resumeFrom options.startBlock) (last + 1) with behind | ahead
    · rw [Nat.max_eq_right behind]
      exact reached.reached
    · rw [Nat.max_eq_left ahead]
      exact reached.complete
  fresh := reached.fresh
  settled := reached.settled
  reached := reached.reached

theorem windowActions_eq (last : Nat) (events : List LiveEvent) :
    windowActions last events =
      (events.map fun live => EventRecord.ofEvent? live.event live.log).map .write ++
        [.flush, .advance last] := by
  simp [windowActions]

/-- One window takes the history from its first block to the one behind its last. -/
theorem secures_backfillWindow
    (page : OnePage head.toNat (first, last))
    (startLe : options.startBlock ≤ first)
    (above : ∀ block, initial.covers block → block < first)
    (reached : Reached chain options chainId earlier initial first checkpoint world) :
    (backfillWindow options.addresses (first, last)).Secures chain
      (fun after => ∃ later, Sound chain options chainId earlier initial later after) checkpoint
      world
      (fun _ later after =>
        Reached chain options chainId earlier initial (last + 1) later after) := by
  have inOrder : first ≤ last := page.inOrder
  have room : last + 1 < UInt64.size := by
    have below : last ≤ head.toNat := page.below
    have fits := page.room
    have positive := pageSize_pos
    omega
  have fetched : Scanning.Secures chain
      (fun after => ∃ later, Sound chain options chainId earlier initial later after)
      (ofOperation (fetchEvents options.addresses first last)).scanning checkpoint world
      (fun events later after => (later = checkpoint ∧ after = world) ∧
        events.map (fun live => EventRecord.ofEvent? live.event live.log) =
          historyBetween chain options.addresses first (last + 1)) :=
    secures_fetchEvents page ⟨checkpoint, reached.toSound⟩
      ⟨⟨rfl, rfl⟩, map_ofEvent?_window chain options.addresses page⟩
  refine fetched.bind ?_
  rintro events _ _ _ ⟨⟨rfl, rfl⟩, reports⟩
  -- A window lies behind the first checkpoint, not only behind the current one.
  have fresh : ∀ records : List EventRecord,
      (∀ report ∈ records.map some,
        report ∈ historyBetween chain options.addresses first (last + 1)) →
          ∀ record ∈ records, initial.covers record.blockNumber.toNat = false := by
    intro records amongHistory record present
    have behind := le_blockNumber_of_mem_historyBetween
      (amongHistory _ (List.mem_map_of_mem present))
    rw [Bool.eq_false_iff]
    intro covered
    have := above _ covered
    omega
  rw [windowActions_eq, reports]
  refine secures_performAll_reports ?_ ?_
  · intro records inFront
    exact ⟨_, reached.toSound.write (fresh records fun _ present => inFront.subset present)⟩
  · intro records whole
    have freshWhole := fresh records fun _ present => whole ▸ present
    have flushed := reached.flush startLe (Nat.le_succ_of_le inOrder) whole freshWhole
    refine secures_performAll_flush ?_
      (secures_performAll_advance chainId.toNat_lt (Nat.lt_of_succ_lt room) flushed.tracked ?_ ?_)
    · exact ⟨_, reached.toSound.write freshWhole⟩
    · intro files tracked
      exact ⟨_, flushed.toSound.withFiles tracked⟩
    · intro files tracked
      have advanced := flushed.advance room tracked
      exact secures_performAll_nil ⟨_, advanced.toSound⟩ advanced

/-- The windows of a range of blocks take the history from its first block to its end. -/
theorem secures_forM_blockWindows
    {size : Nat}
    (isPage : size = pageSize)
    (room : head.toNat + size < UInt64.size)
    (startLe : options.startBlock ≤ first)
    (above : ∀ block, initial.covers block → block < first)
    (reached : Reached chain options chainId earlier initial (min first (head.toNat + 1))
      checkpoint world) :
    Scanning.Secures chain
      (fun after => ∃ later, Sound chain options chainId earlier initial later after)
      ((blockWindows first head.toNat size).forM (backfillWindow options.addresses)) checkpoint
      world
      (fun _ later after =>
        Reached chain options chainId earlier initial (head.toNat + 1) later after) := by
  fun_induction blockWindows first head.toNat size generalizing checkpoint world with
  | case1 first nonempty inductionHypothesis =>
      rw [Nat.min_eq_left (by omega)] at reached
      rw [blockAfter_of_lt (by omega)]
      have page : OnePage head.toNat (first, min head.toNat (first + (size - 1))) :=
        ⟨by dsimp only; omega, Nat.min_le_left _ _, by dsimp only; omega, isPage ▸ room⟩
      refine (secures_backfillWindow page startLe above reached).bind ?_
      intro _ later after _ reachedWindow
      refine inductionHypothesis (by omega) ?_ ?_
      · intro block covered
        have := above block covered
        omega
      · have ends : min (first + size) (head.toNat + 1) =
            min head.toNat (first + (size - 1)) + 1 := by omega
        rw [ends]
        exact reachedWindow
  | case2 first empty =>
      have positive := pageSize_pos
      rw [Nat.min_eq_right (by omega)] at reached
      exact Scanning.secures_of_started_done rfl ⟨checkpoint, reached.toSound⟩ fun _ _ => reached

/-- Loads the checkpoint and catches up with the history, up to a head. -/
def catchUp (options : ScanOptions) (chainId head : UInt64) : ScanProgram Unit := do
  let checkpoint : Checkpoint ←
    askOr (.load options.checkpoint chainId.toNat) fun reply => Except.mapError .file reply
  ExceptT.mk (do
    let (result, _) ← (backfill options.addresses (checkpoint.resumeFrom options.startBlock)
      head.toNat).run.run checkpoint
    return result)

/-- One run of a scan with its checkpoint in a file. -/
def resumed (options : ScanOptions) (chainId head : UInt64) :
    Program SystemDialogue (Except ScanError Unit) :=
  (catchUp options chainId head).run.run throughFiles

/-- Catching up begins with the checkpoint. -/
theorem run_catchUp (options : ScanOptions) (chainId head : UInt64) :
    (catchUp options chainId head).run =
      .ask (.load options.checkpoint chainId.toNat) fun
        | .error cause => .done (.error (.file cause))
        | .ok checkpoint =>
          ((backfill options.addresses (checkpoint.resumeFrom options.startBlock)
            head.toNat).started checkpoint).andThen fun outcome => .done outcome.1 := by
  change Program.ask _ _ = _
  congr 1
  funext reply
  cases reply <;> rfl

/-- A run with a checkpoint in a file loads it and then catches up. -/
theorem resumed_eq (options : ScanOptions) (chainId head : UInt64) :
    resumed options chainId head =
      (inSystem (Checkpoint.load options.checkpoint chainId.toNat).run).andThen fun
        | .error cause => .done (.error (.file cause))
        | .ok checkpoint =>
          ((backfill options.addresses (checkpoint.resumeFrom options.startBlock)
            head.toNat).onFiles checkpoint).andThen fun outcome => .done outcome.1 := by
  rw [resumed, run_catchUp]
  change Program.andThen _ _ = Program.andThen _ _
  congr 1
  funext reply
  cases reply with
  | error cause => rfl
  | ok checkpoint => exact Program.run_andThen _ _ _

/-- A run keeps what earlier runs have flushed in step with the checkpoint, and a run that ends
without an error has flushed the history up to its head. -/
theorem keeps_resumed
    (room : head.toNat + pageSize < UInt64.size)
    {files : FileTree}
    (tracked : Checkpoint.TrackedIn files options.checkpoint chainId.toNat initial)
    (within : ∀ block ∈ initial.block, block + 1 < UInt64.size)
    (complete : (historyBetween chain options.addresses options.startBlock
      (initial.resumeFrom options.startBlock)).Subperm (earlier.map some)) :
    (resumed options chainId head).Keeps (World.moves chain)
      (fun after => ∃ later, Sound chain options chainId earlier initial later after)
      (fun result after => result = .ok () →
        (historyBetween chain options.addresses options.startBlock (head.toNat + 1)).Subperm
          ((earlier ++ after.flushed).map some))
      ⟨files, [], []⟩ := by
  have sound : Sound chain options chainId earlier initial initial ⟨files, [], []⟩ := {
    tracked := tracked
    within := within
    grown := fun _ covered => covered
    complete := by simpa using complete
    fresh := by simp }
  have loaded : (inSystem (Checkpoint.load options.checkpoint chainId.toNat).run).Keeps
      (World.moves chain)
      (fun after => ∃ later, Sound chain options chainId earlier initial later after)
      (fun result after => after = ⟨files, [], []⟩ ∧ ∀ checkpoint, result = .ok checkpoint →
        checkpoint = initial) ⟨files, [], []⟩ := by
    refine keeps_inSystem (tracked.keeps_load.mono ?_ ?_)
    · rintro _ rfl
      exact ⟨initial, sound⟩
    · rintro result _ rfl ended
      exact ⟨rfl, ended⟩
  rw [resumed_eq]
  refine loaded.andThen ?_
  rintro (cause | checkpoint) after holds ⟨rfl, same⟩
  · exact ⟨holds, by simp⟩
  · obtain rfl := same checkpoint rfl
    have reached : Reached chain options chainId earlier checkpoint
        (min (checkpoint.resumeFrom options.startBlock) (head.toNat + 1)) checkpoint
        ⟨files, [], []⟩ := {
      sound with
      settled := rfl
      reached := by
        rw [List.append_nil]
        exact (historyBetween_sublist chain options.addresses options.startBlock
          (Nat.min_le_left _ _)).subperm.trans complete }
    have caughtUp := secures_forM_blockWindows rfl room (checkpoint.start_le_resumeFrom _)
      (fun _ covered => Checkpoint.lt_resumeFrom_of_covers within covered _) reached
    refine Program.Keeps.andThen caughtUp ?_
    rintro ⟨result, later⟩ after holds ended
    refine ⟨holds, ?_⟩
    rintro rfl
    exact (ended () rfl).reached

/-- A window may be written and flushed, whatever then comes of storing its end. -/
theorem leads_backfillWindow
    {addresses : List Address}
    (page : OnePage head.toNat (first, last))
    (whole : records.map some = historyBetween chain addresses first (last + 1))
    (uncovered : checkpoint.covers last = false)
    {after : FileTree}
    {result : Except FileError Unit}
    (stored : (checkpoint.store last).run.Leads FileTree.truthfulMoves world.files (.done result)
      after) :
    ∃ later, ((backfillWindow addresses (first, last)).onFiles checkpoint).Leads
      (World.moves chain) world (.done (result.mapError .file, later))
      ((world.write records).flush.withFiles after) := by
  let found := chain.filter (logsOf addresses (first, last)).selects
  have fetched : (Scanning.onFiles (ofOperation (fetchEvents addresses first last)).scanning
      checkpoint).Leads (World.moves chain) world
      (.done (.ok (found.filterMap historicEvent?), checkpoint)) world := by
    rw [Scanning.onFiles, page.started_fetchEvents]
    exact .turn (.ok _) ⟨rfl, fun found same => (Except.ok.inj same).symm⟩ (.start _ _)
  have complete : ∃ later, ((performAll [.advance last]).onFiles checkpoint).Leads
      (World.moves chain) (world.write records).flush (.done (result.mapError .file, later))
      ((world.write records).flush.withFiles after) := by
    have storedInScan : (inSystem (checkpoint.store last).run).Leads (World.moves chain)
        (world.write records).flush (.done result)
        ((world.write records).flush.withFiles after) :=
      leads_inSystem stored (world.write records).flush
    rw [Scanning.onFiles, performAll_cons, ScanAction.started_advance_of_not_covers uncovered]
    cases result with
    | ok done => exact ⟨_, storedInScan.andThen_of_done (.start _ _)⟩
    | error cause => exact ⟨_, storedInScan.andThen_of_done (.start _ _)⟩
  obtain ⟨later, ended⟩ := complete
  refine ⟨later, (Scanning.leads_bind fetched _).trans ?_⟩
  change ((performAll _).onFiles checkpoint).Leads _ _ _ _
  rw [windowActions_eq, map_ofEvent?_window chain addresses page, ← whole]
  refine (leads_performAll_writes _ _ _).trans ?_
  rw [Scanning.onFiles, performAll_cons, ScanAction.started_flush]
  exact .turn (.ok ()) rfl ended

end Run

end Scan
end Valset
