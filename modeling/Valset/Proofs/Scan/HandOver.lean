import Mathlib.Data.List.Nodup
import Valset.Proofs.Scan.CatchingUp
import Valset.Proofs.Scan.OrderedDeliveries

/-!
# From history to subscriptions

A scan takes the logs up to the head of the chain from the history and the later ones from its
subscriptions. The subscriptions may bring a log again, and they may bring logs that the history
already had. Each log is written once nevertheless, and the limits of the two sources leave no block
out.
-/

namespace Valset
namespace Scan

/-- A chain of logs without reorganisations. No log is taken back, no two logs have one place, and
they stand in the order of their blocks. -/
structure Settled (chain : List Log) : Prop where
  standing : ∀ log ∈ chain, log.removed = false
  distinct : (chain.map Log.place).Nodup
  ordered : InBlockOrder chain

/-- Numbers that stay in 64 bits. Every log has an index, and there is a block behind its own. -/
structure Bounded (chain : List Log) : Prop where
  indexable : ∀ log ∈ chain, log.Indexable
  within : ∀ log ∈ chain, log.blockNumber.toNat + 1 < UInt64.size

/-- Subscriptions that bring logs of a chain in the order of their blocks and with any repetitions,
and all logs of some addresses beyond a block. -/
structure Subscribed
    (chain : List Log)
    (addresses : List Address)
    (head : Nat)
    (logs : List Log) : Prop where
  ordered : InBlockOrder logs
  sound : ∀ log ∈ logs, log ∈ chain ∧ log.address ∈ addresses
  complete : ∀ log ∈ chain, log.address ∈ addresses → head < log.blockNumber.toNat → log ∈ logs

/-- The logs of a chain that concern a scan from a block on. -/
def wantedLogs (chain : List Log) (addresses : List Address) (first : Nat) : List Log :=
  chain.filter fun log => addresses.contains log.address && first ≤ log.blockNumber.toNat

/-- The logs of a chain that a scan leaves to its subscriptions. -/
def laterLogs (chain : List Log) (addresses : List Address) (first head : Nat) : List Log :=
  chain.filter fun log => addresses.contains log.address && first ≤ log.blockNumber.toNat &&
    head < log.blockNumber.toNat

theorem Settled.wantedLogs_eq
    {chain : List Log}
    (settled : Settled chain)
    (addresses : List Address)
    (first head : Nat) :
    wantedLogs chain addresses first =
      logsBetween chain addresses first head ++ laterLogs chain addresses first head := by
  rw [wantedLogs, filter_eq_append_of_ordered settled.ordered _ (head + 1)]
  simp only [Nat.lt_succ_iff, Nat.succ_le_iff]
  rfl

section HandOver

variable
  {chain logs : List Log}
  {addresses : List Address}
  {head : Nat}

theorem Settled.eq_of_place
    (settled : Settled chain)
    {one other : Log}
    (inOne : one ∈ chain)
    (inOther : other ∈ chain)
    (same : one.place = other.place) :
    one = other :=
  List.inj_on_of_nodup_map settled.distinct inOne inOther same

/-- The new logs are the logs beyond the history, each of them once. -/
theorem Subscribed.newLogs_perm
    (subscribed : Subscribed chain addresses head logs)
    (settled : Settled chain)
    (first : Nat) :
    (newLogs first head logs).Perm (laterLogs chain addresses first head) := by
  have newOnce : (newLogs first head logs).Nodup := nodup_eraseDups _
  have laterOnce : (laterLogs chain addresses first head).Nodup :=
    (List.Nodup.of_map _ settled.distinct).filter _
  refine (List.perm_ext_iff_of_nodup newOnce laterOnce).mpr ?_
  intro log
  rw [mem_newLogs_iff, laterLogs, List.mem_filter]
  simp only [Bool.and_eq_true, decide_eq_true_eq, List.contains_iff_mem]
  constructor
  · rintro ⟨present, inScan, beyond⟩
    exact ⟨(subscribed.sound log present).1, ⟨(subscribed.sound log present).2, inScan⟩, beyond⟩
  · rintro ⟨present, ⟨address, inScan⟩, beyond⟩
    exact ⟨subscribed.complete log present address beyond, inScan, beyond⟩

/-- When the new logs arrive in the order of the chain, they are its logs beyond the history. -/
theorem Subscribed.newLogs_eq
    (subscribed : Subscribed chain addresses head logs)
    (settled : Settled chain)
    {first : Nat}
    (inOrder : (newLogs first head logs).Sublist chain) :
    newLogs first head logs = laterLogs chain addresses first head := by
  have perm := subscribed.newLogs_perm settled first
  refine List.Sublist.eq_of_length ?_ perm.length_eq
  have kept : (newLogs first head logs).filter (fun log => addresses.contains log.address &&
      first ≤ log.blockNumber.toNat && head < log.blockNumber.toNat) = newLogs first head logs :=
    List.filter_eq_self.mpr fun log present => (List.mem_filter.mp (perm.mem_iff.mp present)).2
  rw [← kept]
  exact inOrder.filter _

theorem Subscribed.inBlockOrder_append
    (subscribed : Subscribed chain addresses head logs)
    (settled : Settled chain)
    (first : Nat) :
    InBlockOrder (logsBetween chain addresses first head ++ newLogs first head logs) := by
  refine List.pairwise_append.mpr ⟨settled.ordered.filter _, ?_, ?_⟩
  · exact subscribed.ordered.sublist ((eraseDups_sublist _).trans List.filter_sublist)
  · intro one inPast other inNew
    have past := (List.mem_filter.mp inPast).2
    simp only [Bool.and_eq_true, decide_eq_true_eq] at past
    have beyond := (mem_newLogs_iff.mp inNew).2.2
    omega

theorem yields_follow
    (chain logs : List Log)
    (head : UInt64)
    {backfilled : Nat}
    {events : List LiveEvent}
    {records : List EventRecord}
    (recorded : ((Follow.start backfilled).taken events).map EventRecord.ofLive? =
      records.map some)
    (checkpoint : Checkpoint) :
    ∃ block later, (follow backfilled events).Yields (Undisturbed chain head logs) checkpoint
      (block, later) records := by
  have reported : reportsOf (followActions backfilled events) = records.map some := by
    rw [followActions, reportsOf_append, Follow.reportsOf_run, recorded]
    exact List.append_nil _
  have performed : Scanning.Yields (Undisturbed chain head logs)
      (performAll (followActions backfilled events)) checkpoint _ _ :=
    Scanning.yields_performAll (fun _ => Undisturbed.accepted) reported
  have returned (later : Checkpoint) : Scanning.Yields (Undisturbed chain head logs)
      (pure ((Follow.start backfilled).run events).1.lastBlock) later (_, later) [] :=
    Scanning.yields_of_started_done rfl
  rw [← List.append_nil records]
  exact ⟨_, _, performed.bind (returned _)⟩

/-- An undisturbed scan brings the records of its past logs and of its new ones. -/
theorem yields_scanFrom
    {options : ScanOptions}
    {head : UInt64}
    (settled : Settled chain)
    (bounded : Bounded chain)
    (room : head.toNat + pageSize < UInt64.size)
    (subscribed : Subscribed chain options.addresses head.toNat logs)
    (someAddress : options.addresses ≠ [])
    (checkpoint : Checkpoint) :
    ∃ block later, (scanFrom options).Yields (Undisturbed chain head logs) checkpoint
      (block, later)
      ((logsBetween chain options.addresses (checkpoint.resumeFrom options.startBlock) head.toNat ++
        newLogs (checkpoint.resumeFrom options.startBlock) head.toNat logs).filterMap
          EventRecord.ofLog?) := by
  obtain ⟨middle, caughtUp⟩ := yields_backfill logs room settled.standing bounded.indexable
    settled.ordered someAddress (checkpoint.resumeFrom options.startBlock) checkpoint
  have taken := taken_delivered (checkpoint.resumeFrom options.startBlock) head.toNat
    (fun log present => settled.standing log (subscribed.sound log present).1) subscribed.ordered
    (fun one inOne other inOther =>
      settled.eq_of_place (subscribed.sound one inOne).1 (subscribed.sound other inOther).1)
    fun log present => bounded.within log (subscribed.sound log present).1
  have recorded := congrArg (List.map EventRecord.ofLive?) taken
  rw [map_ofLive?_of_indexable fun log present => bounded.indexable log
    (subscribed.sound log (mem_newLogs_iff.mp present).1).1] at recorded
  obtain ⟨block, later, followed⟩ := yields_follow chain logs head recorded middle
  have number : Scanning.Yields (Undisturbed chain head logs)
      (askNode .blockNumber fun reply => reply).scanning checkpoint (head, checkpoint) [] :=
    Scanning.yields_of_started_ask (ScanProgram.started_askOr _ checkpoint)
      (by rintro reply rfl; rfl) (fun _ => rfl)
  have deliveries : Scanning.Yields (Undisturbed chain head logs)
      (ask .deliveries).scanning middle (logs, middle) [] :=
    Scanning.yields_of_started_ask rfl (by rintro reply rfl; rfl) (fun _ => rfl)
  rw [List.filterMap_append]
  exact ⟨block, later, Scanning.yields_get.bind
    ((yields_subscribe options.addresses checkpoint).bind
      (number.bind (caughtUp.bind (deliveries.bind followed))))⟩

end HandOver

/-- An undisturbed scan comes to its end and writes the record of every log from its first block on
exactly once, in the order of blocks, and nothing else. Its first block is the lowest one from its
start on that the checkpoint does not count as complete. Within a block the records are in the order
of the chain or, beyond the history, in the order of arrival. -/
theorem scan_writes_once
    {options : ScanOptions}
    {chain logs : List Log}
    {head : UInt64}
    {checkpoint : Checkpoint}
    (settled : Settled chain)
    (bounded : Bounded chain)
    (room : head.toNat + pageSize < UInt64.size)
    (within : ∀ block ∈ checkpoint.block, block + 1 < UInt64.size)
    (subscribed : Subscribed chain options.addresses head.toNat logs)
    (someAddress : options.addresses ≠ []) :
    (∃ conversation result,
        ((scanFrom options).started checkpoint).Reaches conversation (.done result) ∧
        ∀ exchange ∈ conversation, Undisturbed chain head logs exchange) ∧
      ∀ conversation result,
        ((scanFrom options).started checkpoint).Reaches conversation (.done result) →
        (∀ exchange ∈ conversation, Undisturbed chain head logs exchange) →
        let first := checkpoint.resumeFrom options.startBlock
        (∃ block later, result = (.ok block, later)) ∧
          IsLeast {block | options.startBlock ≤ block ∧ checkpoint.covers block = false} first ∧
          (written conversation).Perm
            ((wantedLogs chain options.addresses first).filterMap EventRecord.ofLog?) ∧
          (written conversation).Pairwise
            (fun one other => one.blockNumber.toNat ≤ other.blockNumber.toNat) ∧
          written conversation =
            (logsBetween chain options.addresses first head.toNat ++
              newLogs first head.toNat logs).filterMap EventRecord.ofLog? ∧
          ((newLogs first head.toNat logs).Sublist chain →
            written conversation =
              (wantedLogs chain options.addresses first).filterMap EventRecord.ofLog?) := by
  refine ⟨Program.exists_reaches_done (Undisturbed.answerable chain logs head) _, ?_⟩
  intro conversation result ended undisturbed first
  obtain ⟨block, later, yields⟩ :=
    yields_scanFrom settled bounded room subscribed someAddress checkpoint
  obtain ⟨finished, recorded⟩ := yields conversation result ended undisturbed
  have division := settled.wantedLogs_eq options.addresses first head.toNat
  refine ⟨⟨block, later, finished⟩, Checkpoint.isLeast_resumeFrom within _, ?_, ?_, recorded, ?_⟩
  · rw [recorded, division]
    exact ((subscribed.newLogs_perm settled first).append_left _).filterMap _
  · rw [recorded]
    refine (subscribed.inBlockOrder_append settled first).filterMap _ ?_
    intro one other inOrder record ofOne otherRecord ofOther
    rw [EventRecord.blockNumber_of_ofLog? ofOne, EventRecord.blockNumber_of_ofLog? ofOther]
    exact inOrder
  · intro inOrder
    rw [recorded, division, ← subscribed.newLogs_eq settled inOrder]

/-- A scan of the contract that the sample logs come from. -/
def sampleOptions : ScanOptions where
  addresses := [.ofNat 1]
  startBlock := 0
  checkpoint := "checkpoint.json"
  resetCheckpoint := false

/-- Logs on both sides of block 10. -/
def sampleChain : List Log :=
  [.sample 3 0 false, .sample 10 0 false, .sample 11 0 false, .sample 12 0 false]

/-- Deliveries with a log that the history has, and one that arrives twice. -/
def sampleDeliveries : List Log :=
  [.sample 10 0 false, .sample 11 0 false, .sample 11 0 false, .sample 12 0 false]

/-- The logs behind block 4 are written, each of them once. -/
theorem sampleChain_writes_once :
    ∃ conversation result,
      ((scanFrom sampleOptions).started ⟨"checkpoint.json", 1, some 4⟩).Reaches conversation
        (.done result) ∧
      written conversation =
        (wantedLogs sampleChain sampleOptions.addresses 5).filterMap EventRecord.ofLog? := by
  have settled : Settled sampleChain := ⟨by decide, by decide, by decide⟩
  have subscribed : Subscribed sampleChain sampleOptions.addresses (10 : UInt64).toNat
      sampleDeliveries :=
    ⟨by decide, by simp [sampleDeliveries, sampleChain, sampleOptions, Log.sample_address],
      by simp [sampleDeliveries, sampleChain]⟩
  have bounded : Bounded sampleChain := ⟨by decide, by decide⟩
  have room : (10 : UInt64).toNat + pageSize < UInt64.size := by decide
  have within : ∀ block ∈ (⟨"checkpoint.json", 1, some 4⟩ : Checkpoint).block,
      block + 1 < UInt64.size := by
    decide
  obtain ⟨⟨conversation, result, ended, undisturbed⟩, outcome⟩ :=
    scan_writes_once settled bounded room within subscribed (by decide)
  obtain ⟨_, _, _, _, _, inOrder⟩ := outcome conversation result ended undisturbed
  have new : newLogs 5 (10 : UInt64).toNat sampleDeliveries =
      [.sample 11 0 false, .sample 12 0 false] := by
    simp [newLogs, sampleDeliveries, List.eraseDups_cons]
  refine ⟨conversation, result, ended, inOrder ?_⟩
  change (newLogs 5 _ _).Sublist _
  rw [new]
  simp [sampleChain]

/-- Two logs of a block that arrive the other way round are written the other way round. -/
theorem swapped_deliveries_written :
    Settled [.sample 11 0 false, .sample 11 1 false] ∧
      Subscribed [.sample 11 0 false, .sample 11 1 false] sampleOptions.addresses
        (10 : UInt64).toNat [.sample 11 1 false, .sample 11 0 false] ∧
      ∃ conversation result,
        ((scanFrom sampleOptions).started (.empty "checkpoint.json" 1)).Reaches conversation
          (.done result) ∧
        (∀ exchange ∈ conversation, Undisturbed [.sample 11 0 false, .sample 11 1 false] 10
          [.sample 11 1 false, .sample 11 0 false] exchange) ∧
        written conversation ≠
          (wantedLogs [.sample 11 0 false, .sample 11 1 false] sampleOptions.addresses 0).filterMap
            EventRecord.ofLog? := by
  have settled : Settled [.sample 11 0 false, .sample 11 1 false] :=
    ⟨by decide, by decide, by decide⟩
  have subscribed : Subscribed [.sample 11 0 false, .sample 11 1 false] sampleOptions.addresses
      (10 : UInt64).toNat [.sample 11 1 false, .sample 11 0 false] :=
    ⟨by decide, by simp [sampleOptions, Log.sample_address], by simp⟩
  obtain ⟨conversation, result, ended, undisturbed⟩ :=
    Program.exists_reaches_done (Undisturbed.answerable [.sample 11 0 false, .sample 11 1 false]
      [.sample 11 1 false, .sample 11 0 false] 10)
      ((scanFrom sampleOptions).started (.empty "checkpoint.json" 1))
  refine ⟨settled, subscribed, conversation, result, ended, undisturbed, ?_⟩
  obtain ⟨_, _, yields⟩ := yields_scanFrom settled ⟨by decide, by decide⟩ (by decide) subscribed
    (by decide) (.empty "checkpoint.json" 1)
  have past : logsBetween [.sample 11 0 false, .sample 11 1 false] sampleOptions.addresses 0
      (10 : UInt64).toNat = [] := by simp [logsBetween]
  have new : newLogs 0 (10 : UInt64).toNat [.sample 11 1 false, .sample 11 0 false] =
      [.sample 11 1 false, .sample 11 0 false] := by
    simp [newLogs, List.eraseDups_cons]
  have wanted : wantedLogs [.sample 11 0 false, .sample 11 1 false] sampleOptions.addresses 0 =
      [.sample 11 0 false, .sample 11 1 false] := by
    simp [wantedLogs, sampleOptions]
  rw [(yields conversation result ended undisturbed).2, wanted]
  change List.filterMap _ (logsBetween _ _ 0 _ ++ newLogs 0 _ _) ≠ _
  rw [past, new]
  intro equal
  have made (index : Nat) (fits : index < UInt64.size) :=
    EventRecord.ofLive?_sample fits 11 false
  have indices := congrArg (List.map EventRecord.logIndex) equal
  simp [EventRecord.ofLog?, made 0 (by decide), made 1 (by decide)] at indices
  revert indices
  decide

end Scan
end Valset
