import Mathlib.Data.List.Basic
import Valset.Proofs.Event.Place
import Valset.Proofs.Scan.Undisturbed
import Valset.Proofs.Scan.Windows

/-!
# Catching up

The windows of a range of blocks divide the logs of the range. A scan that asks for one window after
the other therefore writes every event of the range once and in the order of the chain.
-/

namespace Valset
namespace Scan

/-- The logs that contracts emitted in a range of blocks. -/
def logsBetween (chain : List Log) (addresses : List Address) (first last : Nat) : List Log :=
  chain.filter fun log => addresses.contains log.address && first ≤ log.blockNumber.toNat &&
    log.blockNumber.toNat ≤ last

section Windows

variable {logs chain : List Log}

/-- In the order of blocks, the logs in front of a block come before the others. -/
theorem filter_eq_append_of_ordered
    (ordered : InBlockOrder logs)
    (wanted : Log → Bool)
    (block : Nat) :
    logs.filter wanted =
      logs.filter (fun log => wanted log && log.blockNumber.toNat < block) ++
        logs.filter (fun log => wanted log && block ≤ log.blockNumber.toNat) := by
  induction logs with
  | nil => rfl
  | cons log logs inductionHypothesis =>
      obtain ⟨behind, orderedLogs⟩ := List.pairwise_cons.mp ordered
      rw [List.filter_cons, inductionHypothesis orderedLogs]
      by_cases front : log.blockNumber.toNat < block
      · have notBeyond : ¬ block ≤ log.blockNumber.toNat := by omega
        cases taken : wanted log <;> simp [taken, front, notBeyond]
      · have beyond : block ≤ log.blockNumber.toNat := by omega
        have noneInFront :
            logs.filter (fun log => wanted log && log.blockNumber.toNat < block) = [] := by
          refine List.filter_eq_nil_iff.mpr ?_
          intro other present
          have := behind other present
          simp
          omega
        cases taken : wanted log <;> simp [taken, front, beyond, noneInFront]

/-- A range of blocks can be divided in front of any block but its first one. -/
theorem logsBetween_eq_append
    (ordered : InBlockOrder chain)
    (addresses : List Address)
    {first middle : Nat}
    (last : Nat)
    (inside : first < middle) :
    logsBetween chain addresses first last =
      logsBetween chain addresses first (min last (middle - 1)) ++
        logsBetween chain addresses middle last := by
  rw [logsBetween, filter_eq_append_of_ordered ordered _ middle]
  congr 1
  · refine List.filter_congr fun log _ => ?_
    cases addresses.contains log.address with
    | false => rfl
    | true =>
        rw [Bool.eq_iff_iff]
        simp only [Bool.true_and, Bool.and_eq_true, decide_eq_true_eq]
        omega
  · refine List.filter_congr fun log _ => ?_
    cases addresses.contains log.address with
    | false => rfl
    | true =>
        rw [Bool.eq_iff_iff]
        simp only [Bool.true_and, Bool.and_eq_true, decide_eq_true_eq]
        omega

/-- The windows of a range of blocks divide the logs of the range. -/
theorem flatMap_blockWindows
    (ordered : InBlockOrder chain)
    (addresses : List Address)
    {first last size : Nat}
    (positive : 0 < size)
    (room : last + size < UInt64.size) :
    ((blockWindows first last size).flatMap fun window =>
        logsBetween chain addresses window.1 window.2) =
      logsBetween chain addresses first last := by
  fun_induction blockWindows first last size with
  | case1 first nonempty inductionHypothesis =>
      rw [blockAfter_of_lt (by omega), ← Nat.add_sub_assoc positive, List.flatMap_cons,
        inductionHypothesis]
      exact (logsBetween_eq_append ordered addresses last (Nat.lt_add_of_pos_right positive)).symm
  | case2 first empty =>
      refine (List.filter_eq_nil_iff.mpr ?_).symm
      intro log _
      simp
      omega

/-- What a node answers when a scan asks for a window. -/
theorem filter_selects_logsOf
    (chain : List Log)
    {addresses : List Address}
    (someAddress : addresses ≠ [])
    {head : Nat}
    {window : Nat × Nat}
    (page : OnePage head window) :
    chain.filter (logsOf addresses window).selects =
      logsBetween chain addresses window.1 window.2 := by
  obtain ⟨inOrder, below, -, room⟩ := page
  have firstEq : (UInt64.ofNat window.1).toNat = window.1 :=
    UInt64.toNat_ofNat_of_lt' (by omega)
  have lastEq : (UInt64.ofNat window.2).toNat = window.2 :=
    UInt64.toNat_ofNat_of_lt' (by omega)
  refine List.filter_congr fun log _ => ?_
  cases addresses with
  | nil => exact absurd rfl someAddress
  | cons address addresses =>
      simp [LogFilter.selects, logsOf, UInt64.le_iff_toNat_le, firstEq, lastEq]

end Windows

theorem reportsOf_windowActions
    (last : Nat)
    (events : List LiveEvent) :
    reportsOf (windowActions last events) =
      events.map fun live => EventRecord.ofEvent? live.event live.log := by
  induction events with
  | nil => rfl
  | cons live events inductionHypothesis =>
      change reportsOf (.write _ :: windowActions last events) = _
      rw [reportsOf_cons, inductionHypothesis]
      rfl

/-- The logs that have indices have the records of their events. -/
theorem map_ofLive?_of_indexable
    {logs : List Log}
    (indexable : ∀ log ∈ logs, log.Indexable) :
    (logs.filterMap LiveEvent.ofLog?).map EventRecord.ofLive? =
      (logs.filterMap EventRecord.ofLog?).map some := by
  rw [List.map_filterMap, List.map_filterMap]
  refine List.filterMap_congr fun log present => ?_
  rw [EventRecord.ofLog?]
  cases decoded : LiveEvent.ofLog? log with
  | none => rfl
  | some live =>
      obtain ⟨event, _, rfl⟩ := Option.map_eq_some_iff.mp decoded
      obtain ⟨record, made⟩ : ∃ record, EventRecord.ofLive? ⟨event, log⟩ = some record :=
        EventRecord.exists_ofLive? (indexable log present)
      simp [made]

/-- The history has the same record of a standing log as a subscription. -/
theorem historicEvent?_map_ofEvent?
    {log : Log}
    (standing : log.removed = false) :
    (historicEvent? log).map (fun live => EventRecord.ofEvent? live.event live.log) =
      (LiveEvent.ofLog? log).map EventRecord.ofLive? := by
  rw [historicEvent?, LiveEvent.ofLog?]
  cases Event.ofLog? log with
  | none => rfl
  | some event =>
      have kept : (some (⟨event, log⟩ : LiveEvent)).filter (fun live => !live.removed) =
          some ⟨event, log⟩ := by
        simp [LiveEvent.removed, standing]
      rw [Option.map_some, kept, Option.map_some, Option.map_some]
      exact congrArg some (@EventRecord.ofEvent?_of_standing ⟨event, log⟩ standing)

/-- The events of one page are asked for by one question. -/
theorem OnePage.started_fetchEvents
    {head : Nat}
    {window : Nat × Nat}
    (page : OnePage head window)
    (addresses : List Address)
    (checkpoint : Checkpoint) :
    Scanning.started (ofOperation (fetchEvents addresses window.1 window.2)).scanning checkpoint =
      .ask (.node (.logs (logsOf addresses window))) fun reply => .done (match reply with
        | .error cause => .error (.manager (.logQuery cause))
        | .ok (logs : List Log) => .ok (logs.filterMap historicEvent?), checkpoint) := by
  rw [fetchEvents, page.blockWindows_eq]
  change Program.ask _ _ = _
  congr 1
  funext reply
  rcases reply with cause | (logs : List Log)
  · rfl
  · change Program.done (Except.ok [logs.filterMap historicEvent?].flatten, checkpoint) = _
    rw [List.flatten_singleton]

section Undisturbed

variable
  {chain logs : List Log}
  {head : UInt64}
  {addresses : List Address}

/-- A window brings the records of its logs. -/
theorem yields_backfillWindow
    (standing : ∀ log ∈ chain, log.removed = false)
    (indexable : ∀ log ∈ chain, log.Indexable)
    (someAddress : addresses ≠ [])
    {window : Nat × Nat}
    (page : OnePage head.toNat window)
    (checkpoint : Checkpoint) :
    ∃ later, (backfillWindow addresses window).Yields (Undisturbed chain head logs) checkpoint
      ((), later)
      ((logsBetween chain addresses window.1 window.2).filterMap EventRecord.ofLog?) := by
  have answer := filter_selects_logsOf chain someAddress page
  have fetched : Scanning.Yields (Undisturbed chain head logs)
      (ofOperation (fetchEvents addresses window.1 window.2)).scanning checkpoint
      ((logsBetween chain addresses window.1 window.2).filterMap historicEvent?, checkpoint)
      [] := by
    refine Scanning.yields_of_started_ask (page.started_fetchEvents addresses checkpoint) ?_
      fun _ => rfl
    rintro reply rfl
    rw [← answer]
  have reported : reportsOf (windowActions window.2
      ((logsBetween chain addresses window.1 window.2).filterMap historicEvent?)) =
      ((logsBetween chain addresses window.1 window.2).filterMap EventRecord.ofLog?).map some := by
    have indexableWindow : ∀ log ∈ logsBetween chain addresses window.1 window.2, log.Indexable :=
      fun log present => indexable log (List.mem_of_mem_filter present)
    rw [reportsOf_windowActions, ← map_ofLive?_of_indexable indexableWindow,
      List.map_filterMap, List.map_filterMap]
    refine List.filterMap_congr fun log present => ?_
    exact historicEvent?_map_ofEvent? (standing log (List.mem_of_mem_filter present))
  exact ⟨_, fetched.bind (Scanning.yields_performAll (fun _ => Undisturbed.accepted) reported)⟩

theorem yields_forM_backfillWindow
    (standing : ∀ log ∈ chain, log.removed = false)
    (indexable : ∀ log ∈ chain, log.Indexable)
    (someAddress : addresses ≠ [])
    {windows : List (Nat × Nat)}
    (pages : ∀ window ∈ windows, OnePage head.toNat window)
    (checkpoint : Checkpoint) :
    ∃ later, (windows.forM (backfillWindow addresses)).Yields (Undisturbed chain head logs)
      checkpoint ((), later)
      (windows.flatMap fun window =>
        (logsBetween chain addresses window.1 window.2).filterMap EventRecord.ofLog?) := by
  induction windows generalizing checkpoint with
  | nil => exact ⟨checkpoint, Scanning.yields_of_started_done rfl⟩
  | cons window windows inductionHypothesis =>
      obtain ⟨middle, first⟩ := yields_backfillWindow standing indexable someAddress
        (pages window List.mem_cons_self) checkpoint
      obtain ⟨later, rest⟩ := inductionHypothesis
        (fun other present => pages other (List.mem_cons_of_mem _ present)) middle
      exact ⟨later, first.bind rest⟩

/-- Catching up with an undisturbed history brings the records of all its logs in order. -/
theorem yields_backfill
    (logs : List Log)
    (room : head.toNat + pageSize < UInt64.size)
    (standing : ∀ log ∈ chain, log.removed = false)
    (indexable : ∀ log ∈ chain, log.Indexable)
    (ordered : InBlockOrder chain)
    (someAddress : addresses ≠ [])
    (first : Nat)
    (checkpoint : Checkpoint) :
    ∃ later, (backfill addresses first head.toNat).Yields (Undisturbed chain head logs) checkpoint
      ((), later)
      ((logsBetween chain addresses first head.toNat).filterMap EventRecord.ofLog?) := by
  obtain ⟨later, yields⟩ := yields_forM_backfillWindow standing indexable someAddress
    (fun window present => onePage_of_mem_blockWindows room present) checkpoint
  rw [← List.filterMap_flatMap, flatMap_blockWindows ordered addresses pageSize_pos room] at yields
  exact ⟨later, yields⟩

/-- Subscriptions bring nothing to the output by themselves. -/
theorem yields_subscribe
    (addresses : List Address)
    (checkpoint : Checkpoint) :
    Scanning.Yields (Undisturbed chain head logs) (addresses.forM subscribe).scanning checkpoint
      ((), checkpoint) [] := by
  induction addresses with
  | nil => exact Scanning.yields_of_started_done rfl
  | cons address addresses inductionHypothesis =>
      have first : Scanning.Yields (Undisturbed chain head logs) (subscribe address).scanning
          checkpoint ((), checkpoint) [] :=
        Scanning.yields_of_started_ask (ScanProgram.started_askOr _ checkpoint)
          (by rintro reply rfl; rfl) (fun _ => rfl)
      have both : Scanning.Yields (Undisturbed chain head logs)
          ((subscribe address).scanning >>= fun _ => (addresses.forM subscribe).scanning)
          checkpoint ((), checkpoint) [] :=
        first.bind inductionHypothesis
      intro conversation result ended
      have unfolded : (address :: addresses).forM subscribe =
          (subscribe address >>= fun _ => addresses.forM subscribe) := rfl
      rw [unfolded, ScanProgram.started_scanning_bind] at ended
      exact both conversation result ended

end Undisturbed

end Scan
end Valset
