import Mathlib.Data.List.Induction
import Valset.Proofs.Event.Place
import Valset.Proofs.Scan.Transcript
import Valset.Scan.Scanner

/-!
# The state of following

What one event does to the state of following, and what is known of the state after any number of
events: the blocks that are passed over, the highest block, and which events are remembered.
-/

namespace Valset
namespace Scan
namespace Follow

/-- An event is passed over, recognised, or written, and a written one may complete the blocks in
front of its own. -/
theorem step_cases (state : Follow) (live : LiveEvent) :
    (state.skips live = true ∧ state.step live = (state, [])) ∨
      (state.skips live = false ∧ state.hasSeen live = true ∧
        state.step live = ({ state with skipThrough := state.skipAfter live }, [])) ∨
      (state.skips live = false ∧ state.hasSeen live = false ∧ state.completes live = true ∧
        state.step live =
          (({ state with
              skipThrough := state.skipAfter live
              seen := .ofLive live :: state.seen } : Follow).moveTo live.block,
            [.flush, .advance (live.block - 1), .write (EventRecord.ofLive? live)])) ∨
      (state.skips live = false ∧ state.hasSeen live = false ∧ state.completes live = false ∧
        state.step live =
          ({ state with
              skipThrough := state.skipAfter live
              seen := .ofLive live :: state.seen },
            [.write (EventRecord.ofLive? live)])) := by
  cases skipped : state.skips live with
  | true => exact .inl ⟨rfl, by simp [step, skipped]⟩
  | false =>
      cases known : state.hasSeen live with
      | true => exact .inr (.inl ⟨rfl, rfl, by simp [step, skipped, known]⟩)
      | false =>
          cases completing : state.completes live with
          | true =>
              refine .inr (.inr (.inl ⟨rfl, rfl, rfl, ?_⟩))
              have completing' : ({ state with
                  skipThrough := state.skipAfter live
                  seen := .ofLive live :: state.seen } : Follow).completes live = true :=
                completing
              simp [step, skipped, known, completing']
          | false =>
              refine .inr (.inr (.inr ⟨rfl, rfl, rfl, ?_⟩))
              have completing' : ({ state with
                  skipThrough := state.skipAfter live
                  seen := .ofLive live :: state.seen } : Follow).completes live = false :=
                completing
              simp [step, skipped, known, completing']

/-- An event has arrived before if its identity is remembered. -/
theorem hasSeen_iff {state : Follow} {live : LiveEvent} :
    state.hasSeen live = true ↔ EventIdentity.ofLive live ∈ state.seen := by
  simp [hasSeen]

theorem run_cons
    (state : Follow)
    (live : LiveEvent)
    (events : List LiveEvent) :
    state.run (live :: events) =
      (((state.step live).1.run events).1,
        (state.step live).2 ++ ((state.step live).1.run events).2) := rfl

/-- Following goes on from the state that the events so far have led to. -/
theorem run_append
    (state : Follow)
    (first second : List LiveEvent) :
    state.run (first ++ second) =
      (((state.run first).1.run second).1,
        (state.run first).2 ++ ((state.run first).1.run second).2) := by
  induction first generalizing state with
  | nil => rfl
  | cons live first inductionHypothesis =>
      rw [List.cons_append, run_cons, run_cons, inductionHypothesis, List.append_assoc]

/-- One more event takes one more step. -/
theorem run_concat
    (state : Follow)
    (events : List LiveEvent)
    (live : LiveEvent) :
    state.run (events ++ [live]) =
      (((state.run events).1.step live).1,
        (state.run events).2 ++ ((state.run events).1.step live).2) := by
  rw [run_append, run_cons]
  simp [run]

/-- The events that are neither passed over nor recognised when they arrive. -/
def taken (state : Follow) : List LiveEvent → List LiveEvent
  | [] => []
  | live :: rest =>
    if state.skips live || state.hasSeen live then (state.step live).1.taken rest
    else live :: (state.step live).1.taken rest

/-- What is taken of further events depends on the state that the first ones have led to. -/
theorem taken_append
    (state : Follow)
    (first second : List LiveEvent) :
    state.taken (first ++ second) = state.taken first ++ (state.run first).1.taken second := by
  induction first generalizing state with
  | nil => rfl
  | cons live first inductionHypothesis =>
      rw [List.cons_append, taken, taken, run_cons, inductionHypothesis]
      split <;> rfl

/-- One more event is taken unless it is passed over or has arrived before. -/
theorem taken_concat
    (state : Follow)
    (events : List LiveEvent)
    (live : LiveEvent) :
    state.taken (events ++ [live]) =
      state.taken events ++
        if (state.run events).1.skips live || (state.run events).1.hasSeen live then []
        else [live] := by
  rw [taken_append]
  rfl

/-- Events are taken in the order in which they arrive. -/
theorem taken_sublist
    (state : Follow)
    (events : List LiveEvent) :
    (state.taken events).Sublist events := by
  induction events generalizing state with
  | nil => exact List.Sublist.refl _
  | cons live events inductionHypothesis =>
      rw [taken]
      split
      · exact (inductionHypothesis _).cons live
      · exact (inductionHypothesis _).cons_cons live

/-- What is to be written for an event. -/
theorem reportsOf_step (state : Follow) (live : LiveEvent) :
    reportsOf (state.step live).2 =
      if state.skips live || state.hasSeen live then [] else [EventRecord.ofLive? live] := by
  rcases state.step_cases live with
    ⟨skipped, stepped⟩ | ⟨skipped, known, stepped⟩ |
      ⟨skipped, known, _, stepped⟩ | ⟨skipped, known, _, stepped⟩
  · simp [stepped, skipped]
  · simp [stepped, known]
  · simp [stepped, skipped, known, ScanAction.report?]
  · simp [stepped, skipped, known, ScanAction.report?]

/-- What is to be written for events are the records of those that are taken. -/
theorem reportsOf_run
    (state : Follow)
    (events : List LiveEvent) :
    reportsOf (state.run events).2 = (state.taken events).map EventRecord.ofLive? := by
  induction events generalizing state with
  | nil => rfl
  | cons live events inductionHypothesis =>
      rw [run_cons, reportsOf_append, reportsOf_step, inductionHypothesis, taken]
      split <;> rfl

/-- The records of events whose logs have indices can be made. -/
theorem none_notMem_reportsOf_run
    {events : List LiveEvent}
    (indexable : ∀ live ∈ events, live.Indexable)
    (state : Follow) :
    none ∉ reportsOf (state.run events).2 := by
  rw [reportsOf_run, List.mem_map]
  rintro ⟨live, present, broken⟩
  obtain ⟨record, made⟩ :=
    EventRecord.exists_ofLive? (indexable live ((taken_sublist state events).mem present))
  rw [made] at broken
  cases broken

end Follow

/-- The highest block of the standing events, or the block up to which history was covered. -/
def highest (backfilled : Nat) (events : List LiveEvent) : Nat :=
  events.foldl (fun block live => if live.removed then block else max block live.block) backfilled

/-- A further event moves the highest block unless it was taken back. -/
theorem highest_concat
    (backfilled : Nat)
    (events : List LiveEvent)
    (live : LiveEvent) :
    highest backfilled (events ++ [live]) =
      if live.removed then highest backfilled events
      else max (highest backfilled events) live.block := by
  simp [highest]

theorem le_highest (backfilled : Nat) (events : List LiveEvent) :
    backfilled ≤ highest backfilled events := by
  induction events generalizing backfilled with
  | nil => exact Nat.le_refl _
  | cons live events inductionHypothesis =>
      change backfilled ≤ highest (if live.removed then backfilled else max backfilled live.block)
        events
      refine Nat.le_trans ?_ (inductionHypothesis _)
      split <;> omega

/-- The highest block is no more than a bound of all blocks. -/
theorem highest_le
    {backfilled block : Nat}
    {events : List LiveEvent}
    (backfilled_le : backfilled ≤ block)
    (block_le : ∀ live ∈ events, live.block ≤ block) :
    highest backfilled events ≤ block := by
  induction events generalizing backfilled with
  | nil => exact backfilled_le
  | cons live events inductionHypothesis =>
      have live_le := block_le live List.mem_cons_self
      change highest (if live.removed then backfilled else max backfilled live.block) events ≤ block
      refine inductionHypothesis ?_ fun other present =>
        block_le other (List.mem_cons_of_mem _ present)
      split <;> omega

/-- What is known of the state and of the events that were taken once events have been followed. -/
structure Followed
    (backfilled : Nat)
    (events : List LiveEvent)
    (state : Follow)
    (taken : List LiveEvent) : Prop where
  skip_le_backfilled : state.skipThrough ≤ backfilled
  skip_le_retracted : ∀ live ∈ events, live.removed → state.skipThrough ≤ live.block - 1
  lastBlock_eq : state.lastBlock = highest backfilled events
  seen_le_lastBlock : ∀ identity ∈ state.seen, identity.removed = false →
    identity.block ≤ state.lastBlock
  arrived : ∀ live ∈ taken, live ∈ events
  taken_of_seen : ∀ identity ∈ state.seen, ∃ live ∈ taken, .ofLive live = identity
  seen_of_recent : ∀ live ∈ events, backfilled < live.block →
    state.lastBlock ≤ blockAfter live.block 1 → .ofLive live ∈ state.seen

/-- Before the first event nothing is followed. -/
theorem followed_start (backfilled : Nat) :
    Followed backfilled [] (Follow.start backfilled) [] where
  skip_le_backfilled := Nat.le_refl _
  skip_le_retracted := by simp
  lastBlock_eq := rfl
  seen_le_lastBlock := by simp [Follow.start]
  arrived := by simp
  taken_of_seen := by simp [Follow.start]
  seen_of_recent := by simp

section Step

variable
  {backfilled : Nat}
  {events taken : List LiveEvent}
  {state : Follow}

/-- What is known stays known when the next state passes over no more than before, keeps the recent
events in memory and remembers no event but old ones and the one it has taken. -/
theorem Followed.extend
    (followed : Followed backfilled events state taken)
    (live : LiveEvent)
    (after : Follow)
    {now : List LiveEvent}
    (arrives : ∀ other ∈ now, other = live)
    (skip_le : after.skipThrough ≤ state.skipThrough)
    (skip_le_retracted : live.removed → after.skipThrough ≤ live.block - 1)
    (lastBlock_eq : after.lastBlock = highest backfilled (events ++ [live]))
    (seen_old : ∀ identity ∈ after.seen,
      identity ∈ state.seen ∨ (identity = .ofLive live ∧ live ∈ now))
    (seen_keeps : ∀ identity ∈ state.seen,
      after.lastBlock ≤ blockAfter identity.block 1 → identity ∈ after.seen)
    (seen_live : backfilled < live.block → after.lastBlock ≤ blockAfter live.block 1 →
      .ofLive live ∈ after.seen) :
    Followed backfilled (events ++ [live]) after (taken ++ now) := by
  have lastBlock_le : state.lastBlock ≤ after.lastBlock := by
    rw [lastBlock_eq, highest_concat, followed.lastBlock_eq]
    split <;> omega
  refine ⟨Nat.le_trans skip_le followed.skip_le_backfilled, ?_, lastBlock_eq, ?_, ?_, ?_, ?_⟩
  · intro other present retracted
    rcases List.mem_append.mp present with earlier | last
    · exact Nat.le_trans skip_le (followed.skip_le_retracted other earlier retracted)
    · rw [List.mem_singleton.mp last] at retracted ⊢
      exact skip_le_retracted retracted
  · intro identity remembered standing
    rcases seen_old identity remembered with earlier | ⟨rfl, _⟩
    · exact Nat.le_trans (followed.seen_le_lastBlock identity earlier standing) lastBlock_le
    · have notRemoved : live.removed = false := standing
      rw [lastBlock_eq, highest_concat, notRemoved]
      exact Nat.le_max_right _ _
  · intro other present
    rcases List.mem_append.mp present with earlier | last
    · exact List.mem_append_left _ (followed.arrived other earlier)
    · rw [arrives other last]
      exact List.mem_append_right _ (List.mem_singleton_self live)
  · intro identity remembered
    rcases seen_old identity remembered with earlier | ⟨rfl, takenNow⟩
    · obtain ⟨other, present, same⟩ := followed.taken_of_seen identity earlier
      exact ⟨other, List.mem_append_left _ present, same⟩
    · exact ⟨live, List.mem_append_right _ takenNow, rfl⟩
  · intro other present above recent
    rcases List.mem_append.mp present with earlier | last
    · exact seen_keeps _
        (followed.seen_of_recent other earlier above (Nat.le_trans lastBlock_le recent)) recent
    · rw [List.mem_singleton.mp last] at above recent ⊢
      exact seen_live above recent

/-- The blocks that are passed over become no more. -/
theorem Follow.skipAfter_le (state : Follow) (live : LiveEvent) :
    state.skipAfter live ≤ state.skipThrough := by
  unfold Follow.skipAfter
  split
  · exact Nat.min_le_left _ _
  · exact Nat.le_refl _

/-- An event that is taken back opens its block again. -/
theorem Follow.skipAfter_le_of_removed
    (state : Follow)
    {live : LiveEvent}
    (retracted : live.removed) :
    state.skipAfter live ≤ live.block - 1 := by
  rw [Follow.skipAfter, if_pos retracted]
  exact Nat.min_le_right _ _

/-- One more event keeps what is known. -/
theorem Followed.step
    (followed : Followed backfilled events state taken)
    (live : LiveEvent) :
    Followed backfilled (events ++ [live]) (state.step live).1
      (taken ++ if state.skips live || state.hasSeen live then [] else [live]) := by
  have skip_le := followed.skip_le_backfilled
  have lastBlock_eq := followed.lastBlock_eq
  have backfilled_le := le_highest backfilled events
  rcases state.step_cases live with
    ⟨skipped, stepped⟩ | ⟨_, known, stepped⟩ | ⟨heeded, new, completing, stepped⟩ |
      ⟨heeded, new, completing, stepped⟩
  · rw [skipped, stepped]
    simp only [Follow.skips, Bool.and_eq_true, Bool.not_eq_true', decide_eq_true_eq] at skipped
    obtain ⟨standing, old⟩ := skipped
    refine followed.extend live state nofun (Nat.le_refl _) (by simp [standing]) ?_
      (fun _ remembered => .inl remembered) (fun _ remembered _ => remembered)
      (fun above => by omega)
    rw [highest_concat, standing, lastBlock_eq]
    simp
    omega
  · have remembered := Follow.hasSeen_iff.mp known
    rw [known, Bool.or_true, stepped]
    refine followed.extend live _ nofun (state.skipAfter_le live) state.skipAfter_le_of_removed ?_
      (fun _ remembered => .inl remembered) (fun _ remembered _ => remembered)
      (fun _ _ => remembered)
    rw [highest_concat, lastBlock_eq]
    cases standing : live.removed with
    | true => rfl
    | false =>
        have := followed.seen_le_lastBlock _ remembered standing
        simp only [EventIdentity.ofLive] at this
        simp
        omega
  · simp only [Follow.completes, Bool.and_eq_true, Bool.not_eq_true', decide_eq_true_eq]
      at completing
    obtain ⟨standing, later⟩ := completing
    rw [heeded, new, stepped]
    refine followed.extend live _ (by simp) (state.skipAfter_le live)
      state.skipAfter_le_of_removed ?_ ?_ ?_ ?_
    · rw [highest_concat, standing, ← lastBlock_eq]
      simp [Follow.moveTo]
      omega
    · intro identity remembered
      simp only [Follow.moveTo, List.mem_filter, List.mem_cons] at remembered
      rcases remembered.1 with rfl | earlier
      · exact .inr ⟨rfl, List.mem_singleton_self live⟩
      · exact .inl earlier
    · intro identity remembered recent
      simpa [Follow.moveTo, remembered] using recent
    · intro _ recent
      simpa [Follow.moveTo, EventIdentity.ofLive] using recent
  · rw [heeded, new, stepped]
    refine followed.extend live _ (by simp) (state.skipAfter_le live)
      state.skipAfter_le_of_removed ?_ ?_ (fun _ remembered _ => List.mem_cons_of_mem _ remembered)
      (fun _ _ => List.mem_cons_self)
    · rw [highest_concat, ← lastBlock_eq]
      cases standing : live.removed with
      | true => rfl
      | false =>
          simp [Follow.completes, standing] at completing
          simp
          omega
    · intro identity remembered
      rcases List.mem_cons.mp remembered with rfl | earlier
      · exact .inr ⟨rfl, List.mem_singleton_self live⟩
      · exact .inl earlier

/-- An event above the history is never passed over. -/
theorem Followed.skips_eq_false
    (followed : Followed backfilled events state taken)
    {live : LiveEvent}
    (above : backfilled < live.block) :
    state.skips live = false := by
  have skip_le := followed.skip_le_backfilled
  simp [Follow.skips]
  omega

/-- The blocks in front of an event are complete if it stands and is beyond all before. -/
theorem Followed.completes_eq_true_iff
    (followed : Followed backfilled events state taken)
    {live : LiveEvent} :
    state.completes live = true ↔
      live.removed = false ∧ highest backfilled events < live.block := by
  simp [Follow.completes, followed.lastBlock_eq]

/-- A standing event of a new highest block is new. -/
theorem Followed.hasSeen_eq_false
    (followed : Followed backfilled events state taken)
    {live : LiveEvent}
    (standing : live.removed = false)
    (higher : highest backfilled events < live.block) :
    state.hasSeen live = false := by
  cases known : state.hasSeen live with
  | false => rfl
  | true =>
      have remembered := Follow.hasSeen_iff.mp known
      have lower := followed.seen_le_lastBlock _ remembered standing
      rw [followed.lastBlock_eq] at lower
      exact absurd higher (Nat.not_lt.mpr lower)

/-- A standing event of a new highest block completes the blocks in front of its own. -/
theorem Followed.step_of_higher
    (followed : Followed backfilled events state taken)
    {live : LiveEvent}
    (standing : live.removed = false)
    (higher : highest backfilled events < live.block) :
    state.step live =
      (({ state with
          skipThrough := state.skipAfter live
          seen := .ofLive live :: state.seen } : Follow).moveTo live.block,
        [.flush, .advance (live.block - 1), .write (EventRecord.ofLive? live)]) := by
  have taken := followed.skips_eq_false (Nat.lt_of_le_of_lt (le_highest backfilled events) higher)
  have new := followed.hasSeen_eq_false standing higher
  have completing := followed.completes_eq_true_iff.mpr ⟨standing, higher⟩
  rcases state.step_cases live with
    ⟨skipped, _⟩ | ⟨_, known, _⟩ | ⟨_, _, _, stepped⟩ | ⟨_, _, stays, _⟩
  · rw [taken] at skipped
    cases skipped
  · rw [new] at known
    cases known
  · exact stepped
  · rw [completing] at stays
    cases stays

end Step

/-- What is known once all events have been followed from the beginning. -/
theorem followed_run (backfilled : Nat) (events : List LiveEvent) :
    Followed backfilled events ((Follow.start backfilled).run events).1
      ((Follow.start backfilled).taken events) := by
  induction events using List.reverseRecOn with
  | nil => exact followed_start backfilled
  | append_singleton events live inductionHypothesis =>
      rw [Follow.run_concat, Follow.taken_concat]
      exact inductionHypothesis.step live

/-- An event that is not passed over is taken, unless another one of the same place and flag was
that arrived before it. -/
theorem exists_same_taken
    {backfilled : Nat}
    {before : List LiveEvent}
    (after : List LiveEvent)
    {live : LiveEvent}
    (heeded : ((Follow.start backfilled).run before).1.skips live = false) :
    ∃ same ∈ before ++ [live], EventIdentity.ofLive same = .ofLive live ∧
      same ∈ (Follow.start backfilled).taken (before ++ live :: after) := by
  rw [Follow.taken_append, Follow.taken, heeded, Bool.false_or]
  by_cases known : ((Follow.start backfilled).run before).1.hasSeen live
  · have followed := followed_run backfilled before
    obtain ⟨same, takenBefore, equal⟩ := followed.taken_of_seen _ (Follow.hasSeen_iff.mp known)
    exact ⟨same, List.mem_append_left _ (followed.arrived same takenBefore), equal,
      List.mem_append_left _ takenBefore⟩
  · rw [if_neg known]
    exact ⟨live, by simp, rfl, by simp⟩

/-- Following does one action after the other and gives the highest block. -/
theorem started_follow
    (backfilled : Nat)
    (events : List LiveEvent)
    (checkpoint : Checkpoint) :
    (follow backfilled events).started checkpoint =
      ((performAll (followActions backfilled events)).started checkpoint).andThen fun outcome =>
        .done (outcome.1.map fun _ => ((Follow.start backfilled).run events).1.lastBlock,
          outcome.2) := by
  rw [follow, Scanning.started_bind]
  congr 1
  funext ⟨result, later⟩
  cases result <;> rfl

/-- While events are followed, some of the actions for them, from the first one on, are done and no
other one has left a trace. They are all done when the events end without an error. -/
theorem follow_reaches
    {backfilled : Nat}
    {events : List LiveEvent}
    {checkpoint : Checkpoint}
    {conversation : List (Exchange ScanDialogue)}
    {rest : Program ScanDialogue (Except ScanError Nat × Checkpoint)}
    (reached : ((follow backfilled events).started checkpoint).Reaches conversation rest) :
    ∃ finished left, followActions backfilled events = finished ++ left ∧
      (written conversation).map some = reportsOf finished ∧
      stored checkpoint conversation = checkpointAfter checkpoint finished ∧
      ∀ block later, rest = .done (.ok block, later) → left = [] := by
  rw [started_follow, Program.reaches_andThen_done_comp_iff] at reached
  obtain ⟨middle, reachedMiddle, rfl⟩ := reached
  obtain ⟨finished, left, split, recorded, kept, ended⟩ := performAll_reaches reachedMiddle
  refine ⟨finished, left, split, recorded, kept, ?_⟩
  intro block later equal
  cases middle with
  | ask question next => cases equal
  | done outcome =>
      obtain ⟨_ | value, current⟩ := outcome
      · cases equal
      · exact (ended current rfl).1

/-- The records of all events that are taken have been written when the events end without an
error. -/
theorem written_of_follow_reaches_ok
    {backfilled block : Nat}
    {events : List LiveEvent}
    {checkpoint later : Checkpoint}
    {conversation : List (Exchange ScanDialogue)}
    (ended : ((follow backfilled events).started checkpoint).Reaches conversation
      (.done (.ok block, later))) :
    (written conversation).map some =
      ((Follow.start backfilled).taken events).map EventRecord.ofLive? := by
  obtain ⟨finished, left, split, recorded, _, complete⟩ := follow_reaches ended
  rw [complete block later rfl, List.append_nil, followActions] at split
  rw [recorded, ← split, reportsOf_append, Follow.reportsOf_run]
  exact List.append_nil _

/-- Following may come to its end without an error when the logs of all events have indices. -/
theorem exists_follow_reaches_ok
    (backfilled : Nat)
    {events : List LiveEvent}
    (indexable : ∀ live ∈ events, live.Indexable)
    (checkpoint : Checkpoint) :
    ∃ conversation block later, ((follow backfilled events).started checkpoint).Reaches
      conversation (.done (.ok block, later)) := by
  have made : none ∉ reportsOf (followActions backfilled events) := by
    rw [followActions, reportsOf_append, List.mem_append, not_or]
    exact ⟨Follow.none_notMem_reportsOf_run indexable _, List.not_mem_nil⟩
  obtain ⟨conversation, reached, _⟩ := exists_performAll_reaches made [] checkpoint
  rw [List.append_nil] at reached
  refine ⟨conversation, ((Follow.start backfilled).run events).1.lastBlock,
    checkpointAfter checkpoint (followActions backfilled events), ?_⟩
  rw [started_follow]
  exact reached.andThen _

/-! ## Delivered logs -/

/-- An event is delivered if its log is there, decodable and of concern. -/
theorem mem_delivered_iff
    {first : Nat}
    {logs : List Log}
    {live : LiveEvent} :
    live ∈ delivered first logs ↔
      live.log ∈ logs ∧ LiveEvent.ofLog? live.log = some live ∧ concerns first live = true := by
  simp only [delivered, List.mem_filter, List.mem_filterMap]
  constructor
  · rintro ⟨⟨log, present, decoded⟩, concerning⟩
    obtain ⟨event, _, rfl⟩ := Option.map_eq_some_iff.mp decoded
    exact ⟨present, decoded, concerning⟩
  · rintro ⟨present, decoded, concerning⟩
    exact ⟨⟨live.log, present, decoded⟩, concerning⟩

/-- What is delivered of decodable logs is their events of concern. -/
theorem delivered_eq_filter
    (first : Nat)
    {logs : List Log}
    (events : List LiveEvent)
    (decoded : logs.map LiveEvent.ofLog? = events.map some) :
    delivered first logs = events.filter (concerns first) := by
  have decodable : logs.filterMap LiveEvent.ofLog? = events := by
    have joined := congrArg (List.filterMap id) decoded
    simpa [List.filterMap_map] using joined
  rw [delivered, decodable]

/-- An event of concern is delivered in its place. -/
theorem delivered_split
    {first : Nat}
    {log : Log}
    {live : LiveEvent}
    (decoded : LiveEvent.ofLog? log = some live)
    (concerning : concerns first live)
    (before after : List Log) :
    delivered first (before ++ log :: after) =
      delivered first before ++ live :: delivered first after := by
  simp [delivered, decoded, concerning]

end Scan
end Valset
