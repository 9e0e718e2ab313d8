import Valset.Proofs.Interleaving
import Valset.Proofs.Scan.Follow

/-!
# Late events

What the checkpoint promises while several streams are followed as one. A standing event of a new
highest block declares all blocks in front of its own complete, whichever stream brings it. An event
that another stream brings later from one of these blocks is lost when the scan stops before it is
written, because the next scan begins behind the checkpoint.
-/

namespace Valset
namespace Scan

/-- Wherever following stops, the events of the streams up to the stored checkpoint have been
written. -/
def CheckpointSafe
    (backfilled : Nat)
    (checkpoint : Checkpoint)
    (streams : List (List LiveEvent))
    (merged : List LiveEvent) : Prop :=
  ∀ conversation rest,
    ((follow backfilled merged).started checkpoint).Reaches conversation rest →
    ∀ stream ∈ streams, ∀ live ∈ stream, (stored checkpoint conversation).covers live.block →
      ∃ record ∈ written conversation, record.place = live.place

/-- The checkpoint reaches no event of the streams before following begins. -/
def Uncovered (checkpoint : Checkpoint) (streams : List (List LiveEvent)) : Prop :=
  ∀ stream ∈ streams, ∀ live ∈ stream, checkpoint.covers live.block = false

/-- No event arrives after one of a later block, unless it arrived in front of that one, too. -/
def InTime (events : List LiveEvent) : Prop :=
  ∀ before higher after, events = before ++ higher :: after →
    ∀ late ∈ after, late.block < higher.block → ∃ earlier ∈ before, earlier.place = late.place

/-- A stream that goes beyond a block brings the events of the block from all streams. -/
def SelfContained (streams : List (List LiveEvent)) : Prop :=
  ∀ one ∈ streams, ∀ other ∈ streams, ∀ higher ∈ one, ∀ late ∈ other,
    late.block < higher.block → ∃ earlier ∈ one, earlier.place = late.place

theorem Follow.eq_of_advance_mem_step
    {state : Follow}
    {live : LiveEvent}
    {last : Nat}
    (advanced : .advance last ∈ (state.step live).2) :
    live.block = last + 1 := by
  rcases state.step_cases live with
    ⟨_, stepped⟩ | ⟨_, _, stepped⟩ | ⟨_, _, completing, stepped⟩ | ⟨_, _, _, stepped⟩
  · simp [stepped] at advanced
  · simp [stepped] at advanced
  · simp only [completes, Bool.and_eq_true, decide_eq_true_eq] at completing
    simp only [stepped, List.mem_cons, List.not_mem_nil, reduceCtorEq, false_or, or_false,
      ScanAction.advance.injEq] at advanced
    omega
  · simp [stepped] at advanced

/-- A block is declared complete for an event of the next block, after the actions for all events in
front of that one. -/
theorem Follow.exists_of_advance_mem
    {state : Follow}
    {events : List LiveEvent}
    {finished left : List ScanAction}
    {last : Nat}
    (split : (state.run events).2 ++ [.flush] = finished ++ left)
    (advanced : .advance last ∈ finished) :
    ∃ before higher after, events = before ++ higher :: after ∧ higher.block = last + 1 ∧
      (state.run before).2 <+: finished := by
  induction events generalizing state finished with
  | nil =>
      have onlyFlush : ScanAction.advance last ∈ [ScanAction.flush] := by
        have present := List.mem_append_left left advanced
        rw [← split] at present
        exact present
      simp at onlyFlush
  | cons live events inductionHypothesis =>
      rw [run_cons, List.append_assoc] at split
      rcases List.append_eq_append_iff.mp split with
        ⟨further, rfl, splitFurther⟩ | ⟨further, stepEqual, _⟩
      · rcases List.mem_append.mp advanced with inStep | inFurther
        · exact ⟨[], live, events, rfl, eq_of_advance_mem_step inStep, List.nil_prefix⟩
        · obtain ⟨before, higher, after, rfl, next, initial⟩ :=
            inductionHypothesis splitFurther inFurther
          refine ⟨live :: before, higher, after, rfl, next, ?_⟩
          rw [run_cons]
          exact (List.prefix_append_right_inj _).mpr initial
      · have inStep : ScanAction.advance last ∈ (state.step live).2 := by
          rw [stepEqual]
          exact List.mem_append_left _ advanced
        exact ⟨[], live, events, rfl, eq_of_advance_mem_step inStep, List.nil_prefix⟩

/-- The records of the first ones of the actions for events can be made when the logs of all events
have indices. -/
theorem none_notMem_reportsOf_of_split
    {backfilled : Nat}
    {events : List LiveEvent}
    (indexable : ∀ live ∈ events, live.Indexable)
    {finished left : List ScanAction}
    (split : followActions backfilled events = finished ++ left) :
    none ∉ reportsOf finished := by
  intro broken
  have among : none ∈ reportsOf (followActions backfilled events) := by
    rw [split, reportsOf_append]
    exact List.mem_append_left _ broken
  rw [followActions, reportsOf_append] at among
  exact Follow.none_notMem_reportsOf_run indexable _ ((List.append_nil _ : _ ++ [] = _) ▸ among)

/-- The checkpoint is safe when it is after any number of actions, from the first one on. -/
theorem checkpointSafe_iff_actions
    {backfilled : Nat}
    {checkpoint : Checkpoint}
    {streams : List (List LiveEvent)}
    {merged : List LiveEvent}
    (indexable : ∀ live ∈ merged, live.Indexable) :
    CheckpointSafe backfilled checkpoint streams merged ↔
      ∀ finished left, followActions backfilled merged = finished ++ left →
        ∀ stream ∈ streams, ∀ live ∈ stream,
          (checkpointAfter checkpoint finished).covers live.block →
          ∃ record, some record ∈ reportsOf finished ∧ record.place = live.place := by
  constructor
  · intro safe finished left split stream inStreams live inStream covered
    obtain ⟨conversation, reached, recorded, kept⟩ := exists_performAll_reaches
      (none_notMem_reportsOf_of_split indexable split) left checkpoint
    rw [← split] at reached
    have following := reached.andThen fun outcome =>
      .done (outcome.1.map fun _ => ((Follow.start backfilled).run merged).1.lastBlock, outcome.2)
    rw [← started_follow] at following
    rw [← kept] at covered
    obtain ⟨record, present, here⟩ :=
      safe conversation _ following stream inStreams live inStream covered
    rw [← recorded]
    exact ⟨record, List.mem_map_of_mem present, here⟩
  · intro safe conversation rest reached stream inStreams live inStream covered
    obtain ⟨finished, left, split, recorded, kept, _⟩ := follow_reaches reached
    rw [kept] at covered
    obtain ⟨record, present, here⟩ :=
      safe finished left split stream inStreams live inStream covered
    rw [← recorded] at present
    exact ⟨record, by simpa using present, here⟩

section Events

variable
  {backfilled : Nat}
  {events : List LiveEvent}

/-- What arrives in time is written before its block is declared complete. -/
theorem InTime.exists_record
    (inTime : InTime events)
    (above : ∀ live ∈ events, backfilled < live.block)
    (indexable : ∀ live ∈ events, live.Indexable)
    {finished left : List ScanAction}
    (split : followActions backfilled events = finished ++ left)
    {live : LiveEvent}
    (present : live ∈ events)
    {last : Nat}
    (advanced : .advance last ∈ finished)
    (reached : live.block ≤ last) :
    ∃ record, some record ∈ reportsOf finished ∧ record.place = live.place := by
  obtain ⟨before, higher, after, rfl, next, initial⟩ := Follow.exists_of_advance_mem split advanced
  have arrived : ∃ earlier ∈ before, earlier.place = live.place := by
    rcases List.mem_append.mp present with inBefore | inRest
    · exact ⟨live, inBefore, rfl⟩
    · rcases List.mem_cons.mp inRest with rfl | inAfter
      · omega
      · exact inTime before higher after rfl live inAfter (by omega)
  obtain ⟨earlier, inBefore, earlierHere⟩ := arrived
  obtain ⟨front, back, rfl⟩ := List.append_of_mem inBefore
  have heeded := (followed_run backfilled front).skips_eq_false (above earlier (by simp))
  obtain ⟨same, sameArrived, equal, taken⟩ := exists_same_taken back heeded
  have sameIndexable : same.Indexable := by
    refine indexable same ?_
    rcases List.mem_append.mp sameArrived with inFront | last
    · simp [inFront]
    · simp [List.mem_singleton.mp last]
  obtain ⟨record, made⟩ := EventRecord.exists_ofLive? sameIndexable
  refine ⟨record, ?_, ?_⟩
  · obtain ⟨further, rfl⟩ := initial
    rw [reportsOf_append, Follow.reportsOf_run, ← made]
    exact List.mem_append_left _ (List.mem_map_of_mem taken)
  · rw [EventRecord.place_of_ofLive? made, ← earlierHere]
    exact (EventIdentity.ofLive_eq_iff.mp equal).1

/-- Following may stop when a standing event has declared the blocks in front of its own complete
and nothing but the events in front of it is written. -/
theorem exists_split_actions
    {before : List LiveEvent}
    {live : LiveEvent}
    (standing : live.removed = false)
    (higher : highest backfilled before < live.block)
    (after : List LiveEvent) :
    ∃ left, followActions backfilled (before ++ live :: after) =
      ((Follow.start backfilled).run before).2 ++ [.flush, .advance (live.block - 1)] ++ left := by
  have stepped := (followed_run backfilled before).step_of_higher standing higher
  rw [followActions, Follow.run_append, Follow.run_cons, stepped]
  simp only [List.append_assoc]
  exact ⟨_, rfl⟩

/-- Among the events up to one beyond a block there is a first one beyond the block. -/
theorem exists_first_beyond
    {block : Nat}
    {higher : LiveEvent}
    (beyond : block < higher.block)
    (before after : List LiveEvent) :
    ∃ front first back, before ++ higher :: after = front ++ first :: back ∧
      block < first.block ∧ ∀ live ∈ front, live ∈ before ∧ live.block ≤ block := by
  induction before with
  | nil => exact ⟨[], higher, after, rfl, beyond, by simp⟩
  | cons live before inductionHypothesis =>
      by_cases beyondLive : block < live.block
      · exact ⟨[], live, before ++ higher :: after, rfl, beyondLive, by simp⟩
      · obtain ⟨front, first, back, split, beyondFirst, lower⟩ := inductionHypothesis
        refine ⟨live :: front, first, back, by rw [List.cons_append, split, List.cons_append],
          beyondFirst, ?_⟩
        intro other present
        rcases List.mem_cons.mp present with rfl | inFront
        · exact ⟨List.mem_cons_self, Nat.not_lt.mp beyondLive⟩
        · exact ⟨List.mem_cons_of_mem _ (lower other inFront).1, (lower other inFront).2⟩

/-- A scan may stop right after the first event beyond the block of a late one has declared that
block complete. -/
theorem inTime_of_checkpointSafe
    {checkpoint : Checkpoint}
    {streams : List (List LiveEvent)}
    (standing : ∀ live ∈ events, live.removed = false)
    (above : ∀ live ∈ events, backfilled < live.block)
    (indexable : ∀ live ∈ events, live.Indexable)
    (streamed : ∀ live ∈ events, ∃ stream ∈ streams, live ∈ stream)
    (safe : CheckpointSafe backfilled checkpoint streams events) :
    InTime events := by
  rintro before higher after rfl late inAfter lower
  have present : late ∈ before ++ higher :: after := by simp [inAfter]
  have aboveLate := above late present
  obtain ⟨stream, inStreams, inStream⟩ := streamed late present
  obtain ⟨front, first, back, split, beyond, lowerFront⟩ := exists_first_beyond lower before after
  have highestFront : highest backfilled front ≤ late.block :=
    highest_le (Nat.le_of_lt aboveLate) fun live inFront => (lowerFront live inFront).2
  rw [split] at standing safe indexable
  obtain ⟨left, actions⟩ := exists_split_actions (standing first (by simp))
    (Nat.lt_of_le_of_lt highestFront beyond) back
  have covered : (checkpointAfter checkpoint
      (((Follow.start backfilled).run front).2 ++ [.flush, .advance (first.block - 1)])).covers
        late.block :=
    covers_checkpointAfter_iff.mpr (.inr ⟨first.block - 1, by simp, by omega⟩)
  obtain ⟨record, recorded, here⟩ := (checkpointSafe_iff_actions indexable).mp safe _ left actions
    stream inStreams late inStream covered
  have recordedFront : some record ∈ reportsOf ((Follow.start backfilled).run front).2 := by
    simpa [ScanAction.report?] using recorded
  rw [Follow.reportsOf_run] at recordedFront
  obtain ⟨earlier, taken, made⟩ := List.mem_map.mp recordedFront
  have inFront := (Follow.taken_sublist _ front).mem taken
  refine ⟨earlier, (lowerFront earlier inFront).1, ?_⟩
  exact (EventRecord.place_of_ofLive? made).symm.trans here

end Events

section Streams

variable
  {backfilled : Nat}
  {checkpoint : Checkpoint}
  {streams : List (List LiveEvent)}
  {merged : List LiveEvent}

/-- For one interleaving, the checkpoint is safe exactly when no event is late. -/
theorem checkpointSafe_iff_inTime
    (merges : Merges streams merged)
    (standing : ∀ stream ∈ streams, ∀ live ∈ stream, live.removed = false)
    (above : ∀ stream ∈ streams, ∀ live ∈ stream, backfilled < live.block)
    (indexable : ∀ stream ∈ streams, ∀ live ∈ stream, live.Indexable) :
    CheckpointSafe backfilled checkpoint streams merged ↔
      Uncovered checkpoint streams ∧ InTime merged := by
  rw [← merges.forall_mem_iff] at standing above indexable
  constructor
  · intro safe
    refine ⟨?_, inTime_of_checkpointSafe standing above indexable
      (fun live => merges.mem_iff.mp) safe⟩
    intro stream inStreams live inStream
    cases covered : checkpoint.covers live.block with
    | false => rfl
    | true =>
        obtain ⟨record, recorded, _⟩ := (checkpointSafe_iff_actions indexable).mp safe []
          (followActions backfilled merged) rfl stream inStreams live inStream covered
        cases recorded
  · rintro ⟨uncovered, inTime⟩
    refine (checkpointSafe_iff_actions indexable).mpr ?_
    intro finished left split stream inStreams live inStream covered
    rcases covers_checkpointAfter_iff.mp covered with early | ⟨last, advanced, reached⟩
    · rw [uncovered stream inStreams live inStream] at early
      cases early
    · exact inTime.exists_record above indexable split
        (merges.mem_iff.mpr ⟨stream, inStreams, inStream⟩) advanced reached

/-- In all interleavings of ordered streams no event is late exactly when no stream leaves events of
a block it has passed to other streams. -/
theorem forall_inTime_iff_selfContained
    (ordered : ∀ stream ∈ streams, stream.Pairwise fun one other => one.block ≤ other.block) :
    (∀ merged, Merges streams merged → InTime merged) ↔ SelfContained streams := by
  constructor
  · intro inTime one inOne other inOther higher inHigher late inLate lower
    obtain ⟨rest, merges⟩ := Merges.exists_append inOne
    by_cases own : late ∈ one
    · exact ⟨late, own, rfl⟩
    · obtain ⟨before, after, rfl⟩ := List.append_of_mem inHigher
      have inMerged := merges.mem_iff.mpr ⟨other, inOther, inLate⟩
      have inRest : late ∈ rest := by
        rcases List.mem_append.mp inMerged with inOwn | inRest
        · exact absurd inOwn own
        · exact inRest
      obtain ⟨earlier, inBefore, here⟩ := inTime _ merges before higher (after ++ rest)
        (by simp) late (by simp [inRest]) lower
      exact ⟨earlier, by simp [inBefore], here⟩
  · rintro selfContained merged merges before higher after rfl late inAfter lower
    obtain ⟨front, back, inStreams, comesBefore⟩ := merges.exists_split rfl
    obtain ⟨other, inOther, inLate⟩ := merges.mem_iff.mp (show late ∈ _ by simp [inAfter])
    obtain ⟨earlier, inOne, here⟩ := selfContained _ inStreams other inOther higher (by simp) late
      inLate lower
    have sameBlock : earlier.block = late.block := congrArg Place.block here
    rcases List.mem_append.mp inOne with inFront | inBack
    · exact ⟨earlier, comesBefore earlier inFront, here⟩
    · have orderedBack := (List.pairwise_append.mp (ordered _ inStreams)).2.1
      rcases List.mem_cons.mp inBack with rfl | behind
      · omega
      · have := (List.pairwise_cons.mp orderedBack).1 earlier behind
        omega

/-- The checkpoint of a scan that follows ordered streams is safe as long as no event is late. This
is so in all their interleavings exactly when the streams have nothing to wait for from each
other. -/
theorem checkpointSafe_iff_selfContained
    (ordered : ∀ stream ∈ streams, stream.Pairwise fun one other => one.block ≤ other.block)
    (standing : ∀ stream ∈ streams, ∀ live ∈ stream, live.removed = false)
    (above : ∀ stream ∈ streams, ∀ live ∈ stream, backfilled < live.block)
    (indexable : ∀ stream ∈ streams, ∀ live ∈ stream, live.Indexable) :
    (∀ merged, Merges streams merged →
        (CheckpointSafe backfilled checkpoint streams merged ↔
          Uncovered checkpoint streams ∧ InTime merged)) ∧
      ((∀ merged, Merges streams merged →
          CheckpointSafe backfilled checkpoint streams merged) ↔
        Uncovered checkpoint streams ∧ SelfContained streams) := by
  have each : ∀ merged, Merges streams merged →
      (CheckpointSafe backfilled checkpoint streams merged ↔
        Uncovered checkpoint streams ∧ InTime merged) :=
    fun merged merges => checkpointSafe_iff_inTime merges standing above indexable
  refine ⟨each, ?_⟩
  rw [← forall_inTime_iff_selfContained ordered]
  constructor
  · intro safe
    refine ⟨?_, fun merged merges => ((each merged merges).mp (safe merged merges)).2⟩
    have merges := Merges.flatten streams
    exact ((each _ merges).mp (safe _ merges)).1
  · rintro ⟨uncovered, inTime⟩ merged merges
    exact (each merged merges).mpr ⟨uncovered, inTime merged merges⟩

end Streams

/-- Two streams of which the second one has no event of its own. -/
def repeatingStreams : List (List LiveEvent) :=
  [[.sample 11 0 false, .sample 12 0 false], [.sample 11 0 false]]

/-- Whichever of the two streams is ahead, the checkpoint is safe. -/
theorem repeatingStreams_checkpointSafe :
    SelfContained repeatingStreams ∧ ∀ merged, Merges repeatingStreams merged →
      CheckpointSafe 10 ⟨"checkpoint.json", 1, some 10⟩ repeatingStreams merged := by
  have uncovered : Uncovered ⟨"checkpoint.json", 1, some 10⟩ repeatingStreams := by
    unfold Uncovered
    decide
  have selfContained : SelfContained repeatingStreams := by
    unfold SelfContained
    decide
  refine ⟨selfContained, ?_⟩
  exact (checkpointSafe_iff_selfContained (by decide) (by decide) (by decide) (by decide)).2.mpr
    ⟨uncovered, selfContained⟩

/-- Two streams with events of different blocks. -/
def racingStreams : List (List LiveEvent) :=
  [[.sample 12 0 false], [.sample 11 0 false]]

/-- The checkpoint passes the event of the stream that is behind. -/
theorem racingStreams_not_checkpointSafe :
    (∀ stream ∈ racingStreams, stream.Pairwise fun one other => one.block ≤ other.block) ∧
      (∀ stream ∈ racingStreams, ∀ live ∈ stream, live.removed = false ∧ 10 < live.block) ∧
      Merges racingStreams [.sample 12 0 false, .sample 11 0 false] ∧
      ¬ CheckpointSafe 10 ⟨"checkpoint.json", 1, some 10⟩ racingStreams
        [.sample 12 0 false, .sample 11 0 false] := by
  have merges : Merges racingStreams [.sample 12 0 false, .sample 11 0 false] :=
    Merges.flatten racingStreams
  refine ⟨by decide, by decide, merges, ?_⟩
  intro safe
  have inTime := ((checkpointSafe_iff_inTime merges (by decide) (by decide) (by decide)).mp safe).2
  obtain ⟨earlier, absent, _⟩ := inTime [] (.sample 12 0 false) [.sample 11 0 false] rfl
    (.sample 11 0 false) List.mem_cons_self (by decide)
  cases absent

end Scan
end Valset
