import Mathlib.Data.List.Induction
import Valset.Proofs.Scan.BlockNumber
import Valset.Proofs.Scan.Follow

/-!
# Replaying the output

Whether the last record of a log says what the last event about it said. An event is dropped when it
repeats one that is still remembered, and what is remembered of a block is forgotten when a standing
event of a new highest block leaves it more than one block behind. A log that is delivered,
retracted and delivered again before that is retracted for good in the output. This is the only way
in which the output and the stream disagree.
-/

namespace Valset
namespace Scan

/-- The flags with which the log at a place was delivered. -/
def deliveredFlags (place : Place) (events : List LiveEvent) : List Bool :=
  (events.filter (·.place = place)).map (·.removed)

/-- The flags with which the log at a place was written. -/
def writtenFlags (place : Place) (records : List EventRecord) : List Bool :=
  (records.filter (·.place = place)).map (·.removed)

@[simp] theorem deliveredFlags_append
    (place : Place)
    (first second : List LiveEvent) :
    deliveredFlags place (first ++ second) =
      deliveredFlags place first ++ deliveredFlags place second := by
  simp [deliveredFlags]

theorem deliveredFlags_singleton
    (place : Place)
    (live : LiveEvent) :
    deliveredFlags place [live] = if live.place = place then [live.removed] else [] := by
  by_cases here : live.place = place <;> simp [deliveredFlags, here]

/-- Records are written with the flags of their events. -/
theorem writtenFlags_of_recorded
    (place : Place)
    {events : List LiveEvent}
    {records : List EventRecord}
    (recorded : records.map some = events.map EventRecord.ofLive?) :
    writtenFlags place records = deliveredFlags place events := by
  have written : writtenFlags place records =
      ((records.map fun record => (record.place, record.removed)).filter
        (·.1 = place)).map (·.2) := by
    rw [List.filter_map, List.map_map]
    rfl
  have delivered : deliveredFlags place events =
      ((events.map fun live => (live.place, live.removed)).filter (·.1 = place)).map (·.2) := by
    rw [List.filter_map, List.map_map]
    rfl
  rw [written, delivered, EventRecord.map_place_removed recorded]

/-- A standing event of a new highest block that leaves another block more than one block behind.
What is remembered of that block is forgotten. -/
def LeavesBehind
    (backfilled : Nat)
    (before : List LiveEvent)
    (block : Nat)
    (live : LiveEvent) : Prop :=
  live.removed = false ∧ highest backfilled before < live.block ∧ block + 1 < live.block

/-- A part of a stream, from its beginning or from an event that leaves a block behind, during which
no event leaves the block behind. -/
structure Visit
    (backfilled block : Nat)
    (before recent : List LiveEvent) : Prop where
  opens : before = [] ∨ ∃ earlier live,
    before = earlier ++ [live] ∧ LeavesBehind backfilled earlier block live
  stays : ∀ first live second, recent = first ++ live :: second →
    ¬ LeavesBehind backfilled (before ++ first) block live

/-- The log at a place ends the stream with the flag with which it came up, and had the other flag
in between, all within one visit of its block. -/
def Flickers
    (backfilled : Nat)
    (events : List LiveEvent)
    (place : Place) : Prop :=
  ∃ before recent after, events = before ++ recent ++ after ∧
    Visit backfilled place.block before recent ∧
    (∀ live ∈ after, live.place ≠ place) ∧
    ∃ flag between, deliveredFlags place recent = flag :: between ++ [flag] ∧ (!flag) ∈ between

section Memory

variable
  {backfilled : Nat}
  {events taken : List LiveEvent}
  {state : Follow}
  {live : LiveEvent}
  {identity : EventIdentity}

/-- An event that does not leave a block behind adds itself to what is remembered of the block. -/
theorem Followed.mem_seen_step_iff
    (followed : Followed backfilled events state taken)
    (above : backfilled < live.block)
    (within : identity.block + 1 < UInt64.size)
    (stays : ¬ LeavesBehind backfilled events identity.block live) :
    identity ∈ (state.step live).1.seen ↔ identity ∈ state.seen ∨ identity = .ofLive live := by
  have heeded := followed.skips_eq_false above
  rcases state.step_cases live with
    ⟨skipped, _⟩ | ⟨_, known, stepped⟩ | ⟨_, _, completing, stepped⟩ | ⟨_, _, _, stepped⟩
  · rw [heeded] at skipped
    cases skipped
  · have remembered := Follow.hasSeen_iff.mp known
    rw [stepped]
    constructor
    · exact .inl
    · rintro (earlier | rfl)
      · exact earlier
      · exact remembered
  · obtain ⟨standing, higher⟩ := followed.completes_eq_true_iff.mp completing
    have near : live.block ≤ blockAfter identity.block 1 := by
      rw [blockAfter_of_lt within]
      by_contra far
      exact stays ⟨standing, higher, by omega⟩
    rw [stepped]
    simp [Follow.moveTo, near, or_comm]
  · rw [stepped]
    simp [or_comm]

/-- Nothing is remembered of a block that is left behind. -/
theorem Followed.not_mem_seen_step
    (followed : Followed backfilled events state taken)
    (leaves : LeavesBehind backfilled events identity.block live) :
    identity ∉ (state.step live).1.seen := by
  obtain ⟨standing, higher, far⟩ := leaves
  have notNear : ¬ live.block ≤ blockAfter identity.block 1 :=
    Nat.not_le.mpr (Nat.lt_of_le_of_lt (blockAfter_le identity.block 1) far)
  rw [followed.step_of_higher standing higher]
  simp [Follow.moveTo, notNear]

end Memory

namespace Visit

variable
  {backfilled block : Nat}
  {before recent : List LiveEvent}
  {live : LiveEvent}

/-- A visit that goes on was one before. -/
theorem of_concat (visit : Visit backfilled block before (recent ++ [live])) :
    Visit backfilled block before recent where
  opens := visit.opens
  stays first other second split := by
    apply visit.stays first other (second ++ [live])
    rw [split, List.append_assoc, List.cons_append]

theorem last_stays (visit : Visit backfilled block before (recent ++ [live])) :
    ¬ LeavesBehind backfilled (before ++ recent) block live :=
  visit.stays recent live [] rfl

/-- A visit goes on with an event that does not leave the block behind. -/
theorem concat
    (visit : Visit backfilled block before recent)
    (stays : ¬ LeavesBehind backfilled (before ++ recent) block live) :
    Visit backfilled block before (recent ++ [live]) where
  opens := visit.opens
  stays first other second split := by
    rcases List.eq_nil_or_concat second with rfl | ⟨front, last, rfl⟩
    · obtain ⟨rfl, equal⟩ := List.append_inj' split rfl
      injection equal with equal
      exact equal ▸ stays
    · have split' : recent ++ [live] = (first ++ other :: front) ++ [last] := by
        simpa using split
      exact visit.stays first other front (List.append_inj' split' rfl).1

/-- Every stream ends in a visit of any block. -/
theorem exists_visit (backfilled block : Nat) (events : List LiveEvent) :
    ∃ before recent, events = before ++ recent ∧ Visit backfilled block before recent := by
  induction events using List.reverseRecOn with
  | nil => exact ⟨[], [], rfl, .inl rfl, by simp⟩
  | append_singleton events live inductionHypothesis =>
      by_cases leaves : LeavesBehind backfilled events block live
      · exact ⟨events ++ [live], [], by simp, .inr ⟨events, live, rfl, leaves⟩, by simp⟩
      · obtain ⟨before, recent, rfl, visit⟩ := inductionHypothesis
        exact ⟨before, recent ++ [live], by simp, visit.concat leaves⟩

end Visit

section Records

variable
  {backfilled : Nat}
  {place : Place}
  {before recent : List LiveEvent}

/-- At the end of a visit the events of a place that were delivered in it are remembered. -/
theorem Visit.mem_seen_iff
    (visit : Visit backfilled place.block before recent)
    (above : ∀ live ∈ before ++ recent, backfilled < live.block)
    (within : place.block + 1 < UInt64.size)
    {live : LiveEvent}
    (here : live.place = place) :
    EventIdentity.ofLive live ∈ ((Follow.start backfilled).run (before ++ recent)).1.seen ↔
      live.removed ∈ deliveredFlags place recent := by
  have blockEqual : (EventIdentity.ofLive live).block = place.block := by
    rw [← here]
    rfl
  induction recent using List.reverseRecOn with
  | nil =>
      rcases visit.opens with rfl | ⟨earlier, opener, rfl, leaves⟩
      · simp [Follow.run, Follow.start, deliveredFlags]
      · rw [← blockEqual] at leaves
        have forgotten := (followed_run backfilled earlier).not_mem_seen_step leaves
        simpa [Follow.run_concat, deliveredFlags] using forgotten
  | append_singleton recent last inductionHypothesis =>
      have aboveEarlier : ∀ live ∈ before ++ recent, backfilled < live.block :=
        fun other present => above other (List.append_assoc .. ▸ List.mem_append_left _ present)
      have earlier :
          EventIdentity.ofLive live ∈ ((Follow.start backfilled).run (before ++ recent)).1.seen ↔
            live.removed ∈ deliveredFlags place recent :=
        inductionHypothesis visit.of_concat aboveEarlier
      have stays := visit.last_stays
      rw [← blockEqual] at stays within
      have remembered := (followed_run backfilled (before ++ recent)).mem_seen_step_iff
        (above last (by simp)) within stays
      rw [← List.append_assoc, Follow.run_concat, remembered, earlier,
        EventIdentity.ofLive_eq_iff, deliveredFlags_append, deliveredFlags_singleton, here,
        List.mem_append]
      by_cases lastHere : last.place = place
      · simp [lastHere]
      · simp [lastHere, Ne.symm lastHere]

/-- One more event of a stream above the history is taken unless it is remembered. -/
theorem takenFlags_concat
    (place : Place)
    (before : List LiveEvent)
    {live : LiveEvent}
    (above : backfilled < live.block) :
    deliveredFlags place ((Follow.start backfilled).taken (before ++ [live])) =
      deliveredFlags place ((Follow.start backfilled).taken before) ++
        if live.place = place ∧
          EventIdentity.ofLive live ∉ ((Follow.start backfilled).run before).1.seen
        then [live.removed] else [] := by
  have heeded := (followed_run backfilled before).skips_eq_false above
  rw [Follow.taken_concat, deliveredFlags_append, heeded]
  congr 1
  by_cases known : EventIdentity.ofLive live ∈ ((Follow.start backfilled).run before).1.seen
  · simp [Follow.hasSeen, known, deliveredFlags]
  · simp [Follow.hasSeen, known, deliveredFlags_singleton]

/-- After a visit the last event of a place that is taken has the flag with which the place came up,
unless it had the other flag later. -/
theorem Visit.getLast?_takenFlags
    (visit : Visit backfilled place.block before recent)
    (above : ∀ live ∈ before ++ recent, backfilled < live.block)
    (within : place.block + 1 < UInt64.size)
    (first : Bool)
    (rest : List Bool)
    (flags : deliveredFlags place recent = first :: rest) :
    (deliveredFlags place ((Follow.start backfilled).taken (before ++ recent))).getLast? =
      some (if (!first) ∈ rest then !first else first) := by
  induction recent using List.reverseRecOn generalizing rest with
  | nil => simp [deliveredFlags] at flags
  | append_singleton recent last inductionHypothesis =>
      have aboveEarlier : ∀ live ∈ before ++ recent, backfilled < live.block :=
        fun other present => above other (List.append_assoc .. ▸ List.mem_append_left _ present)
      have lastFlags := takenFlags_concat place (before ++ recent) (above last (by simp))
      rw [← List.append_assoc, lastFlags]
      rw [deliveredFlags_append, deliveredFlags_singleton] at flags
      by_cases here : last.place = place
      · rw [if_pos here] at flags
        have known := visit.of_concat.mem_seen_iff aboveEarlier within here
        cases earlierFlags : deliveredFlags place recent with
        | nil =>
            rw [earlierFlags] at flags known
            obtain ⟨rfl, rfl⟩ := List.cons.inj flags
            simp [here, known]
        | cons opening middle =>
            rw [earlierFlags] at flags known
            obtain ⟨rfl, rfl⟩ := List.cons.inj flags
            have lastEarlier :=
              inductionHypothesis visit.of_concat aboveEarlier _ earlierFlags
            by_cases repeated : last.removed ∈ opening :: middle
            · rw [if_neg (by simp [known, repeated]), List.append_nil, lastEarlier]
              cases opening <;> cases same : last.removed <;> simp_all
            · rw [if_pos ⟨here, by rwa [known]⟩]
              cases opening <;> cases same : last.removed <;> simp_all
      · rw [if_neg here, List.append_nil] at flags
        rw [if_neg (by simp [here]), List.append_nil]
        exact inductionHypothesis visit.of_concat aboveEarlier _ flags

/-- Nothing is delivered for a place where no event is. -/
theorem deliveredFlags_eq_nil
    {events : List LiveEvent}
    (elsewhere : ∀ live ∈ events, live.place ≠ place) :
    deliveredFlags place events = [] := by
  simpa [deliveredFlags] using elsewhere

/-- Events of other places bring nothing of a place. -/
theorem takenFlags_append_of_ne
    (before : List LiveEvent)
    {after : List LiveEvent}
    (elsewhere : ∀ live ∈ after, live.place ≠ place) :
    deliveredFlags place ((Follow.start backfilled).taken (before ++ after)) =
      deliveredFlags place ((Follow.start backfilled).taken before) := by
  rw [Follow.taken_append, deliveredFlags_append, List.append_right_eq_self]
  exact deliveredFlags_eq_nil fun live present =>
    elsewhere live ((Follow.taken_sublist _ after).mem present)

/-- A place that was delivered was delivered for the last time at some moment. -/
theorem exists_last_delivery
    {events : List LiveEvent}
    (delivered : ∃ live ∈ events, live.place = place) :
    ∃ front last after, events = front ++ last :: after ∧ last.place = place ∧
      ∀ live ∈ after, live.place ≠ place := by
  induction events with
  | nil => simp at delivered
  | cons live events inductionHypothesis =>
      by_cases later : ∃ other ∈ events, other.place = place
      · obtain ⟨front, last, after, rfl, here, elsewhere⟩ := inductionHypothesis later
        exact ⟨live :: front, last, after, rfl, here, elsewhere⟩
      · have here : live.place = place := by
          obtain ⟨other, present, otherHere⟩ := delivered
          rcases List.mem_cons.mp present with rfl | inLater
          · exact otherHere
          · exact absurd ⟨other, inLater, otherHere⟩ later
        exact ⟨[], live, events, rfl, here, fun other present otherHere =>
          later ⟨other, present, otherHere⟩⟩

/-- What is taken of a stream above the history ends with the same flag for a place as the stream
exactly when the log there does not flicker. -/
theorem getLast?_takenFlags_iff
    {events : List LiveEvent}
    (above : ∀ live ∈ events, backfilled < live.block)
    (within : place.block + 1 < UInt64.size)
    (delivered : ∃ live ∈ events, live.place = place) :
    (deliveredFlags place ((Follow.start backfilled).taken events)).getLast? =
        (deliveredFlags place events).getLast? ↔
      ¬ Flickers backfilled events place := by
  constructor
  · rintro agree ⟨before, recent, after, rfl, visit, elsewhere, flag, between, flags, flipped⟩
    have lastDelivered :
        (deliveredFlags place (before ++ recent ++ after)).getLast? = some flag := by
      rw [deliveredFlags_append, deliveredFlags_append, deliveredFlags_eq_nil elsewhere, flags,
        List.append_nil, ← List.append_assoc, List.getLast?_concat]
    have lastTaken := visit.getLast?_takenFlags
      (fun live present => above live (List.mem_append_left _ present)) within
      flag (between ++ [flag]) flags
    rw [takenFlags_append_of_ne _ elsewhere, lastTaken,
      if_pos (List.mem_append_left _ flipped), lastDelivered] at agree
    simp at agree
  · intro steady
    obtain ⟨front, last, after, rfl, here, elsewhere⟩ := exists_last_delivery delivered
    obtain ⟨before, recent, rfl, earlierVisit⟩ :=
      Visit.exists_visit backfilled place.block front
    have lastStays : ¬ LeavesBehind backfilled (before ++ recent) place.block last := by
      rintro ⟨_, _, far⟩
      rw [← here] at far
      exact absurd far (by simp)
    have visit := earlierVisit.concat lastStays
    have split : before ++ recent ++ last :: after = before ++ (recent ++ [last]) ++ after := by
      simp
    rw [split] at above steady ⊢
    have flags : deliveredFlags place (recent ++ [last]) =
        deliveredFlags place recent ++ [last.removed] := by
      rw [deliveredFlags_append, deliveredFlags_singleton, if_pos here]
    have lastDelivered :
        (deliveredFlags place (before ++ (recent ++ [last]) ++ after)).getLast? =
          some last.removed := by
      rw [deliveredFlags_append, deliveredFlags_append, deliveredFlags_eq_nil elsewhere, flags]
      simp
    have lastTaken := visit.getLast?_takenFlags
      (fun live present => above live (List.mem_append_left _ present)) within
    rw [lastDelivered, takenFlags_append_of_ne _ elsewhere]
    cases opened : deliveredFlags place recent with
    | nil =>
        rw [opened] at flags
        rw [lastTaken _ _ flags, if_neg (by simp)]
    | cons opening middle =>
        rw [opened] at flags
        rw [lastTaken _ _ flags]
        have notBack : ¬ (opening = last.removed ∧ (!opening) ∈ middle) := by
          rintro ⟨same, flipped⟩
          exact steady ⟨before, _, after, rfl, visit, elsewhere, opening, middle,
            by rw [flags, ← same], flipped⟩
        cases opening <;> cases ended : last.removed <;> simp_all

end Records

/-- After a stream above the history the last record of a log says what the last event about it
said, exactly when the log does not flicker. Its block is not the last one that there can be, behind
which the pruning would take the first one for the next. -/
theorem replay_agrees_iff_not_flickers
    {backfilled block : Nat}
    {events : List LiveEvent}
    {checkpoint later : Checkpoint}
    {conversation : List (Exchange ScanDialogue)}
    {place : Place}
    (above : ∀ live ∈ events, backfilled < live.block)
    (within : place.block + 1 < UInt64.size)
    (ended : ((follow backfilled events).started checkpoint).Reaches conversation
      (.done (.ok block, later)))
    (delivered : ∃ live ∈ events, live.place = place) :
    (writtenFlags place (written conversation)).getLast? =
        (deliveredFlags place events).getLast? ↔
      ¬ Flickers backfilled events place := by
  rw [writtenFlags_of_recorded place (written_of_follow_reaches_ok ended)]
  exact getLast?_takenFlags_iff above within delivered

/-- A log that is delivered, retracted and delivered again in one block. -/
def redelivery : List LiveEvent :=
  [.sample 11 0 false, .sample 11 0 true, .sample 11 0 false]

theorem indexable_redelivery : ∀ live ∈ redelivery, live.Indexable := by
  decide

/-- The log that is delivered again agrees if and only if it does not flicker. -/
theorem redelivery_replay_agrees_iff :
    ∃ conversation block later,
      ((follow 10 redelivery).started (.empty "checkpoint.json" 1)).Reaches conversation
        (.done (.ok block, later)) ∧
      ((writtenFlags (LiveEvent.sample 11 0 false).place (written conversation)).getLast? =
          (deliveredFlags (LiveEvent.sample 11 0 false).place redelivery).getLast? ↔
        ¬ Flickers 10 redelivery (LiveEvent.sample 11 0 false).place) := by
  obtain ⟨conversation, block, later, ended⟩ :=
    exists_follow_reaches_ok 10 indexable_redelivery (.empty "checkpoint.json" 1)
  exact ⟨conversation, block, later, ended,
    replay_agrees_iff_not_flickers (by decide) (by decide) ended (by decide)⟩

/-- A redelivered log stays retracted in the output. -/
theorem redelivery_stays_retracted :
    (∀ live ∈ redelivery, 10 < live.block) ∧
      ∃ conversation block later,
        ((follow 10 redelivery).started (.empty "checkpoint.json" 1)).Reaches conversation
          (.done (.ok block, later)) ∧
        (writtenFlags (LiveEvent.sample 11 0 false).place (written conversation)).getLast? =
          some true ∧
        (deliveredFlags (LiveEvent.sample 11 0 false).place redelivery).getLast? =
          some false := by
  obtain ⟨conversation, block, later, ended⟩ :=
    exists_follow_reaches_ok 10 indexable_redelivery (.empty "checkpoint.json" 1)
  refine ⟨by decide, conversation, block, later, ended, ?_, by decide⟩
  rw [writtenFlags_of_recorded _ (written_of_follow_reaches_ok ended)]
  decide

end Scan
end Valset
