import Mathlib.Data.List.Induction
import Mathlib.Data.List.Nodup
import Valset.Proofs.Scan.BlockNumber
import Valset.Proofs.Scan.Follow

/-!
# Deliveries in the order of blocks

What is taken from subscriptions without retractions that bring logs in the order of their blocks.
A log may arrive several times, but its repetitions arrive while its block is still remembered, so
that it is taken where it arrives first.
-/

namespace Valset
namespace Scan

section Streams

variable {backfilled : Nat}

/-- Without retractions, the limit up to which events are passed over stays where it is. -/
theorem Follow.skipThrough_run
    {events : List LiveEvent}
    (standing : ∀ live ∈ events, live.removed = false)
    (state : Follow) :
    (state.run events).1.skipThrough = state.skipThrough := by
  induction events generalizing state with
  | nil => rfl
  | cons live events inductionHypothesis =>
      have standingLive := standing live List.mem_cons_self
      have limit : (state.step live).1.skipThrough = state.skipThrough := by
        rcases state.step_cases live with
          ⟨_, stepped⟩ | ⟨_, _, stepped⟩ | ⟨_, _, _, stepped⟩ | ⟨_, _, _, stepped⟩ <;>
          simp [stepped, skipAfter, moveTo, standingLive]
      rw [run_cons]
      refine (inductionHypothesis ?_ _).trans limit
      exact fun other present => standing other (List.mem_cons_of_mem _ present)

/-- In the order of blocks, a standing event is remembered when it arrived before. -/
theorem Followed.hasSeen_iff_of_ordered
    {events taken : List LiveEvent}
    {state : Follow}
    (followed : Followed backfilled events state taken)
    {live : LiveEvent}
    (standing : ∀ other ∈ events, other.removed = false)
    (standingLive : live.removed = false)
    (ordered : ∀ other ∈ events, other.block ≤ live.block)
    (above : backfilled < live.block)
    (within : live.block + 1 < UInt64.size) :
    state.hasSeen live = true ↔ ∃ other ∈ events, other.place = live.place := by
  constructor
  · intro known
    have remembered := Follow.hasSeen_iff.mp known
    obtain ⟨other, takenBefore, equal⟩ := followed.taken_of_seen _ remembered
    exact ⟨other, followed.arrived other takenBefore, (EventIdentity.ofLive_eq_iff.mp equal).1⟩
  · rintro ⟨other, present, here⟩
    have equal : EventIdentity.ofLive other = .ofLive live :=
      EventIdentity.ofLive_eq_iff.mpr ⟨here, by rw [standing other present, standingLive]⟩
    have sameBlock : other.block = live.block := congrArg Place.block here
    have lastBlock_le : state.lastBlock ≤ live.block := by
      rw [followed.lastBlock_eq]
      exact highest_le (Nat.le_of_lt above) ordered
    have recent : state.lastBlock ≤ blockAfter other.block 1 := by
      rw [sameBlock, blockAfter_of_lt within]
      exact Nat.le_succ_of_le lastBlock_le
    have remembered := followed.seen_of_recent other present (by omega) recent
    rw [equal] at remembered
    exact Follow.hasSeen_iff.mpr remembered

/-- In the order of blocks, a standing event is taken when it lies behind the history and arrives
for the first time. -/
theorem taken_concat_of_ordered
    {events : List LiveEvent}
    (live : LiveEvent)
    (standing : ∀ other ∈ events, other.removed = false)
    (standingLive : live.removed = false)
    (ordered : ∀ other ∈ events, other.block ≤ live.block)
    (within : live.block + 1 < UInt64.size) :
    (Follow.start backfilled).taken (events ++ [live]) =
      (Follow.start backfilled).taken events ++
        if backfilled < live.block ∧ ∀ other ∈ events, other.place ≠ live.place
        then [live] else [] := by
  have limit := Follow.skipThrough_run standing (Follow.start backfilled)
  rw [Follow.taken_concat]
  congr 1
  by_cases above : backfilled < live.block
  · have taken := (followed_run backfilled events).skips_eq_false above
    have known := (followed_run backfilled events).hasSeen_iff_of_ordered standing standingLive
      ordered above within
    by_cases repeated : ∃ other ∈ events, other.place = live.place
    · rw [known.mpr repeated, if_pos (by simp), if_neg]
      rintro ⟨_, new⟩
      obtain ⟨other, present, here⟩ := repeated
      exact new other present here
    · have new : ((Follow.start backfilled).run events).1.hasSeen live = false := by
        simpa using mt known.mp repeated
      rw [taken, new, if_neg (by simp), if_pos]
      exact ⟨above, fun other present here => repeated ⟨other, present, here⟩⟩
  · have passed : ((Follow.start backfilled).run events).1.skips live = true := by
      have old : live.block ≤ ((Follow.start backfilled).run events).1.skipThrough := by
        rw [limit]
        exact Nat.not_lt.mp above
      simp [Follow.skips, standingLive, old]
    rw [passed, if_pos (by simp), if_neg (fun both => above both.1)]

end Streams

section Repetitions

variable
  {α : Type}
  [BEq α]
  [LawfulBEq α]

theorem eraseDups_concat
    (items : List α)
    (item : α) :
    (items ++ [item]).eraseDups = items.eraseDups ++ if item ∈ items then [] else [item] := by
  rw [List.eraseDups_append]
  by_cases present : item ∈ items
  · simp [List.removeAll, present]
  · simp [List.removeAll, present, List.eraseDups_cons]

theorem nodup_eraseDups (items : List α) : items.eraseDups.Nodup := by
  induction items using List.reverseRecOn with
  | nil => exact List.nodup_nil
  | append_singleton items item inductionHypothesis =>
      rw [eraseDups_concat]
      split
      · simpa using inductionHypothesis
      · rename_i absent
        refine List.nodup_append.mpr ⟨inductionHypothesis, List.nodup_singleton _, ?_⟩
        rintro other present _ last rfl
        rw [List.mem_singleton.mp last] at present
        exact absent (List.mem_eraseDups.mp present)

theorem eraseDups_sublist (items : List α) : items.eraseDups.Sublist items := by
  induction items using List.reverseRecOn with
  | nil => exact List.Sublist.refl _
  | append_singleton items item inductionHypothesis =>
      rw [eraseDups_concat]
      refine inductionHypothesis.append ?_
      split
      · exact List.nil_sublist _
      · exact List.Sublist.refl _

end Repetitions

/-- The logs of subscriptions that a scan has still to write, each where it arrives first. -/
def newLogs (first head : Nat) (logs : List Log) : List Log :=
  (logs.filter fun log =>
    first ≤ log.blockNumber.toNat && head < log.blockNumber.toNat).eraseDups

theorem mem_newLogs_iff
    {first head : Nat}
    {logs : List Log}
    {log : Log} :
    log ∈ newLogs first head logs ↔
      log ∈ logs ∧ first ≤ log.blockNumber.toNat ∧ head < log.blockNumber.toNat := by
  simp [newLogs]

theorem newLogs_concat
    (first head : Nat)
    (logs : List Log)
    (log : Log) :
    newLogs first head (logs ++ [log]) = newLogs first head logs ++
      if first ≤ log.blockNumber.toNat ∧ head < log.blockNumber.toNat ∧ log ∉ logs
      then [log] else [] := by
  rw [newLogs, List.filter_append]
  by_cases wanted : first ≤ log.blockNumber.toNat ∧ head < log.blockNumber.toNat
  · by_cases present : log ∈ logs <;> simp [wanted, present, eraseDups_concat, newLogs]
  · have dropped : [log].filter (fun log =>
        first ≤ log.blockNumber.toNat && head < log.blockNumber.toNat) = [] := by
      simpa using wanted
    rw [dropped, List.append_nil, if_neg (fun all => wanted ⟨all.1, all.2.1⟩), List.append_nil]
    rfl

/-- An event arrives for the first time when its log does. -/
theorem forall_place_ne_iff_not_mem
    {first : Nat}
    {logs : List Log}
    {live : LiveEvent}
    (decoded : LiveEvent.ofLog? live.log = some live)
    (concerning : concerns first live = true)
    (distinct : ∀ other ∈ logs, other.place = live.log.place → other = live.log) :
    (∀ other ∈ delivered first logs, other.place ≠ live.place) ↔ live.log ∉ logs := by
  constructor
  · intro elsewhere present
    exact elsewhere live (mem_delivered_iff.mpr ⟨present, decoded, concerning⟩) rfl
  · intro absent other present here
    obtain ⟨inLogs, _, _⟩ := mem_delivered_iff.mp present
    rw [distinct other.log inLogs here] at inLogs
    exact absent inLogs

/-- In the order of blocks, the events of the new logs are taken. -/
theorem taken_delivered
    (first head : Nat)
    {logs : List Log}
    (standing : ∀ log ∈ logs, log.removed = false)
    (ordered : InBlockOrder logs)
    (distinct : ∀ one ∈ logs, ∀ other ∈ logs, one.place = other.place → one = other)
    (within : ∀ log ∈ logs, log.blockNumber.toNat + 1 < UInt64.size) :
    (Follow.start head).taken (delivered first logs) =
      (newLogs first head logs).filterMap LiveEvent.ofLog? := by
  induction logs using List.reverseRecOn with
  | nil => rfl
  | append_singleton logs log inductionHypothesis =>
      obtain ⟨orderedLogs, _, before⟩ := List.pairwise_append.mp ordered
      have standingLogs : ∀ other ∈ logs, other.removed = false :=
        fun other present => standing other (List.mem_append_left _ present)
      have standingLog : log.removed = false := standing log (by simp)
      have distinctLogs : ∀ one ∈ logs, ∀ other ∈ logs, one.place = other.place → one = other :=
        fun one inOne other inOther =>
          distinct one (List.mem_append_left _ inOne) other (List.mem_append_left _ inOther)
      have earlier := inductionHypothesis standingLogs orderedLogs distinctLogs
        fun other present => within other (List.mem_append_left _ present)
      rw [newLogs_concat, List.filterMap_append, ← earlier]
      cases decoded : LiveEvent.ofLog? log with
      | none =>
          have dropped : delivered first (logs ++ [log]) = delivered first logs := by
            simp [delivered, decoded]
          rw [dropped]
          split <;> simp [decoded]
      | some live =>
          obtain ⟨event, _, rfl⟩ := Option.map_eq_some_iff.mp decoded
          by_cases inScan : first ≤ log.blockNumber.toNat
          · have concerning : concerns first ⟨event, log⟩ = true := by
              simp [concerns, LiveEvent.block, inScan]
            have arrives : delivered first (logs ++ [log]) =
                delivered first logs ++ [⟨event, log⟩] :=
              delivered_split decoded concerning logs []
            have new := forall_place_ne_iff_not_mem decoded concerning fun other present =>
              distinct other (List.mem_append_left _ present) log (by simp)
            rw [arrives, taken_concat_of_ordered ⟨event, log⟩
              (fun other present => standingLogs _ (mem_delivered_iff.mp present).1) standingLog
              (fun other present => before _ (mem_delivered_iff.mp present).1 log (by simp))
              (within log (by simp))]
            congr 1
            by_cases wanted : head < log.blockNumber.toNat ∧ log ∉ logs
            · rw [if_pos ⟨wanted.1, new.mpr wanted.2⟩, if_pos ⟨inScan, wanted⟩]
              simp [decoded]
            · rw [if_neg fun both => wanted ⟨both.1, new.mp both.2⟩, if_neg fun all => wanted all.2]
              rfl
          · have dropped : delivered first (logs ++ [log]) = delivered first logs := by
              simp [delivered, decoded, concerns, LiveEvent.removed, LiveEvent.block, standingLog,
                inScan]
            rw [dropped, if_neg (fun all => inScan all.1)]
            simp

end Scan
end Valset
