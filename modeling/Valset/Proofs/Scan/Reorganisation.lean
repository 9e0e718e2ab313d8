import Valset.Proofs.Scan.Follow

/-!
# Reorganisations

What becomes of the logs that replace retracted ones. Two filters stand between a subscription and
the output: logs in front of the first block of a scan are dropped, and events up to the head of the
history are passed over. A retraction lowers the second limit below its block, so that from the
first block of the scan on every later event reaches the output; the first limit stays where it is.
-/

namespace Valset
namespace Scan

/-- A standing event behind a retraction is not passed over. -/
theorem Followed.skips_eq_false_of_retracted
    {backfilled : Nat}
    {events taken : List LiveEvent}
    {state : Follow}
    (followed : Followed backfilled events state taken)
    {retracted live : LiveEvent}
    (retraction : retracted ∈ events)
    (removed : retracted.removed)
    (later : retracted.block ≤ live.block)
    (positive : 0 < live.block) :
    state.skips live = false := by
  have limit := followed.skip_le_retracted retracted retraction removed
  simp [Follow.skips]
  omega

/-- A log in front of the first block of a scan is written only to retract it. From the first block
of the scan on, every standing log that arrives after a retraction at its block or in front of it is
written, unless a log of the same place was written already; the block before all others is left
out. -/
theorem replacement_written
    {first backfilled block : Nat}
    {logs : List Log}
    {checkpoint later : Checkpoint}
    {conversation : List (Exchange ScanDialogue)}
    (ended : ((follow backfilled (delivered first logs)).started checkpoint).Reaches conversation
      (.done (.ok block, later))) :
    (∀ before retraction between log after retracted live,
        logs = before ++ retraction :: between ++ log :: after →
        LiveEvent.ofLog? retraction = some retracted → retracted.removed →
        LiveEvent.ofLog? log = some live → live.removed = false →
        retracted.block ≤ live.block → first ≤ live.block → 0 < live.block →
        ∃ same ∈ delivered first (before ++ retraction :: between ++ [log]),
          EventIdentity.ofLive same = .ofLive live ∧
            ∃ record ∈ written conversation, EventRecord.ofLive? same = some record) ∧
      ∀ record ∈ written conversation, record.removed = false →
        first ≤ record.blockNumber.toNat := by
  have recorded := written_of_follow_reaches_ok ended
  constructor
  · rintro before retraction between log after retracted live rfl retractionDecoded removed
      logDecoded standing afterRetraction inScan positive
    have retractionConcerns : concerns first retracted := by simp [concerns, removed]
    have logConcerns : concerns first live := by simp [concerns, inScan]
    have retractedBefore : retracted ∈ delivered first (before ++ retraction :: between) := by
      rw [delivered_split retractionDecoded retractionConcerns]
      simp
    have heeded := (followed_run backfilled _).skips_eq_false_of_retracted retractedBefore removed
      afterRetraction positive
    rw [delivered_split logDecoded logConcerns] at recorded ⊢
    obtain ⟨same, arrived, equal, taken⟩ := exists_same_taken _ heeded
    exact ⟨same, arrived, equal, EventRecord.exists_record_of_mem recorded taken⟩
  · intro record present standing
    obtain ⟨live, taken, made⟩ := EventRecord.exists_event_of_mem recorded present
    have inStream := (Follow.taken_sublist _ _).mem taken
    have concerning : concerns first live := (List.mem_filter.mp inStream).2
    have notRemoved : live.removed = false :=
      (EventRecord.removed_of_ofLive? made).symm.trans standing
    have inScan : first ≤ live.block := by simpa [concerns, notRemoved] using concerning
    rw [EventRecord.blockNumber_of_ofLive? made]
    exact inScan

/-- A log of a block, its retraction, and the log that takes its place. -/
def replacement : List Log :=
  [.sample 11 0 false, .sample 11 0 true, .sample 11 1 false]

theorem delivered_replacement :
    delivered 5 replacement =
      [.sample 11 0 false, .sample 11 0 true, .sample 11 1 false] :=
  delivered_eq_filter 5 [.sample 11 0 false, .sample 11 0 true, .sample 11 1 false]
    (by simp [replacement])

/-- The log that takes the place of the retracted one is written. -/
theorem replacement_written_sample :
    ∃ conversation block later,
      ((follow 12 (delivered 5 replacement)).started (.empty "checkpoint.json" 1)).Reaches
        conversation (.done (.ok block, later)) ∧
      ∃ same ∈ delivered 5 replacement,
        EventIdentity.ofLive same = .ofLive (.sample 11 1 false) ∧
          ∃ record ∈ written conversation, EventRecord.ofLive? same = some record := by
  have indexable : ∀ live ∈ delivered 5 replacement, live.Indexable := by
    rw [delivered_replacement]
    decide
  obtain ⟨conversation, block, later, ended⟩ :=
    exists_follow_reaches_ok 12 indexable (.empty "checkpoint.json" 1)
  exact ⟨conversation, block, later, ended,
    (replacement_written ended).1 [.sample 11 0 false] (.sample 11 0 true) []
      (.sample 11 1 false) [] (.sample 11 0 true) (.sample 11 1 false) rfl
      (LiveEvent.ofLog?_sample _ _ _) rfl (LiveEvent.ofLog?_sample _ _ _) rfl
      (by decide) (by decide) (by decide)⟩

/-- Whatever the first block of a scan and the place of a log in the chain: a standing log that
arrives after a written retraction at its block or in front of it reaches the output. -/
def ReplacementsWritten
    (first backfilled : Nat)
    (logs : List Log) : Prop :=
  ∀ (checkpoint later : Checkpoint) (conversation : List (Exchange ScanDialogue)) (block : Nat),
    ((follow backfilled (delivered first logs)).started checkpoint).Reaches conversation
      (.done (.ok block, later)) →
    ∀ before retraction between log after retracted live,
      logs = before ++ retraction :: between ++ log :: after →
      LiveEvent.ofLog? retraction = some retracted → retracted.removed →
      (∃ record ∈ written conversation, EventRecord.ofLive? retracted = some record) →
      LiveEvent.ofLog? log = some live → live.removed = false →
      retracted.block ≤ live.block →
      ∃ record ∈ written conversation, EventRecord.ofLive? live = some record

theorem ReplacementsWritten.exists_taken
    {first backfilled : Nat}
    (before between after : List Log)
    {retraction log : Log}
    {retracted live : LiveEvent}
    (holds : ReplacementsWritten first backfilled
      (before ++ retraction :: between ++ log :: after))
    {events : List LiveEvent}
    (streamed : delivered first (before ++ retraction :: between ++ log :: after) = events)
    (indexable : ∀ live ∈ events, live.Indexable)
    (retractionDecoded : LiveEvent.ofLog? retraction = some retracted)
    (removed : retracted.removed)
    (logDecoded : LiveEvent.ofLog? log = some live)
    (standing : live.removed = false)
    (afterRetraction : retracted.block ≤ live.block)
    (retractionTaken : retracted ∈ (Follow.start backfilled).taken events) :
    ∃ same ∈ (Follow.start backfilled).taken events,
      EventRecord.ofLive? same = EventRecord.ofLive? live := by
  subst streamed
  obtain ⟨conversation, block, later, ended⟩ :=
    exists_follow_reaches_ok backfilled indexable (.empty "" 0)
  have recorded := written_of_follow_reaches_ok ended
  obtain ⟨record, present, made⟩ := holds _ _ _ _ ended before retraction between log after
    retracted live rfl retractionDecoded removed
    (EventRecord.exists_record_of_mem recorded retractionTaken) logDecoded standing afterRetraction
  obtain ⟨same, taken, madeToo⟩ := EventRecord.exists_event_of_mem recorded present
  exact ⟨same, taken, madeToo.trans made.symm⟩

/-- A log that differs from a sample in its address only. -/
def rivalLog : Log :=
  { Log.sample 5 0 false with address := .ofNat 2 }

def rival : LiveEvent :=
  { LiveEvent.sample 5 0 false with log := rivalLog }

theorem ofLog?_rivalLog : LiveEvent.ofLog? rivalLog = some rival := by
  rw [rivalLog, LiveEvent.ofLog?_address (LiveEvent.ofLog?_sample 5 0 false)]
  rfl

/-- Replacements get lost in front of the first block of a scan, in the block before all others, and
behind a log of the same place. -/
theorem not_replacementsWritten :
    ¬ ReplacementsWritten 11 20 [.sample 5 0 true, .sample 5 0 false] ∧
      ¬ ReplacementsWritten 0 0 [.sample 0 0 true, .sample 0 0 false] ∧
      ¬ ReplacementsWritten 0 4 [.sample 5 0 true, .sample 5 0 false, rivalLog] := by
  refine ⟨fun holds => ?_, fun holds => ?_, fun holds => ?_⟩
  · have streamed : delivered 11 [.sample 5 0 true, .sample 5 0 false] = [.sample 5 0 true] :=
      delivered_eq_filter 11 [.sample 5 0 true, .sample 5 0 false] (by simp)
    obtain ⟨same, taken, equal⟩ := holds.exists_taken [] [] [] streamed (by decide)
      (LiveEvent.ofLog?_sample 5 0 true) rfl (LiveEvent.ofLog?_sample 5 0 false) rfl (by decide)
      List.mem_cons_self
    rw [List.mem_singleton.mp taken] at equal
    have flag := congrArg (Option.map EventRecord.removed) equal
    revert flag
    decide
  · have streamed : delivered 0 [.sample 0 0 true, .sample 0 0 false] =
        [.sample 0 0 true, .sample 0 0 false] :=
      delivered_eq_filter 0 [.sample 0 0 true, .sample 0 0 false] (by simp)
    obtain ⟨same, taken, equal⟩ := holds.exists_taken [] [] [] streamed (by decide)
      (LiveEvent.ofLog?_sample 0 0 true) rfl (LiveEvent.ofLog?_sample 0 0 false) rfl (by decide)
      List.mem_cons_self
    rw [List.mem_singleton.mp taken] at equal
    have flag := congrArg (Option.map EventRecord.removed) equal
    revert flag
    decide
  · have streamed : delivered 0 [.sample 5 0 true, .sample 5 0 false, rivalLog] =
        [.sample 5 0 true, .sample 5 0 false, rival] :=
      delivered_eq_filter 0 [.sample 5 0 true, .sample 5 0 false, rival]
        (by simp [ofLog?_rivalLog])
    obtain ⟨same, taken, equal⟩ := holds.exists_taken [] [.sample 5 0 false] [] streamed
      (by decide) (LiveEvent.ofLog?_sample 5 0 true) rfl ofLog?_rivalLog rfl (by decide)
      List.mem_cons_self
    have address := congrArg (Option.map EventRecord.address) equal
    rcases List.mem_cons.mp taken with rfl | later
    · revert address
      decide
    · rw [List.mem_singleton.mp later] at address
      revert address
      decide

end Scan
end Valset
