import Valset.Proofs.Scan.LateEvents

/-!
# What is flushed when a block is stored

The order in which following hands records to the output, flushes it and stores blocks. The actions
for the events are done one after the other, each by one exchange at most, and the first refusal is
the last exchange. A record that could not be made ends everything without an exchange. A block is
stored for an event that begins a later one, right behind a flush of everything that was written for
the events in front of it.
-/

namespace Valset
namespace Scan

/-! ## Exchanges of actions -/

/-- The exchange by which an action is done, unless it has nothing to do or cannot be done. -/
def ScanAction.exchange? (checkpoint : Checkpoint) : ScanAction → Option (Exchange ScanDialogue)
  | .write report => report.map fun record => ⟨.write record, .ok ()⟩
  | .flush => some ⟨.flush, .ok ()⟩
  | .advance block =>
    if checkpoint.covers block then none else some ⟨.store checkpoint block, .ok ()⟩

/-- The exchanges by which actions are done one after the other. -/
def exchangesOf : Checkpoint → List ScanAction → List (Exchange ScanDialogue)
  | _, [] => []
  | checkpoint, action :: actions =>
    (action.exchange? checkpoint).toList ++ exchangesOf (action.checkpointAfter checkpoint) actions

/-- The exchanges of actions depend on the checkpoint that earlier ones have led to. -/
theorem exchangesOf_append
    (checkpoint : Checkpoint)
    (first second : List ScanAction) :
    exchangesOf checkpoint (first ++ second) =
      exchangesOf checkpoint first ++ exchangesOf (checkpointAfter checkpoint first) second := by
  induction first generalizing checkpoint with
  | nil => rfl
  | cons action first inductionHypothesis =>
      rw [List.cons_append, exchangesOf, exchangesOf, inductionHypothesis, List.append_assoc,
        checkpointAfter_cons]

/-- An action has no record to write where it should, or it asks nothing, or it asks one question
and is done or refused by the answer. -/
theorem ScanAction.perform_exchange?
    (action : ScanAction)
    (checkpoint : Checkpoint) :
    action.perform.started checkpoint = .done (.error .indexOverflow, checkpoint) ∨
      action.report? ≠ some none ∧
        ((action.exchange? checkpoint = none ∧
            action.perform.started checkpoint =
              .done (.ok (), action.checkpointAfter checkpoint)) ∨
          ∃ (question : ScanQuestion) (accepted : question.Reply)
            (outcome : question.Reply → Except ScanError Unit × Checkpoint),
            action.exchange? checkpoint = some ⟨question, accepted⟩ ∧
            action.perform.started checkpoint =
              .ask question (fun reply => .done (outcome reply)) ∧
            ∀ reply,
              (reply = accepted ∧ outcome reply = (.ok (), action.checkpointAfter checkpoint)) ∨
                (¬ Accepted ⟨question, reply⟩ ∧
                  ∃ cause, outcome reply = (.error cause, checkpoint))) := by
  cases action with
  | write report =>
      cases report with
      | none => exact .inl rfl
      | some record =>
          refine .inr ⟨by simp [report?], .inr ⟨.write record, .ok (), _, rfl,
            started_write record checkpoint, ?_⟩⟩
          rintro (cause | _)
          · exact .inr ⟨by simp [Accepted], cause, rfl⟩
          · exact .inl ⟨rfl, rfl⟩
  | flush =>
      refine .inr ⟨by simp [report?], .inr ⟨.flush, .ok (), _, rfl, started_flush checkpoint, ?_⟩⟩
      rintro (cause | _)
      · exact .inr ⟨by simp [Accepted], cause, rfl⟩
      · exact .inl ⟨rfl, rfl⟩
  | advance block =>
      refine .inr ⟨by simp [report?], ?_⟩
      by_cases covered : checkpoint.covers block
      · refine .inl ⟨if_pos covered, ?_⟩
        rw [started_advance_of_covers covered, checkpointAfter, Checkpoint.completed,
          if_pos covered]
      · refine .inr ⟨.store checkpoint block, .ok (), _, if_neg covered,
          started_advance_of_not_covers (by simpa using covered), ?_⟩
        rintro (cause | _)
        · exact .inr ⟨by simp [Accepted], _, rfl⟩
        · refine .inl ⟨rfl, ?_⟩
          rw [checkpointAfter, Checkpoint.completed, if_neg covered]

theorem accepted_of_exchange?
    {action : ScanAction}
    {checkpoint : Checkpoint}
    {exchange : Exchange ScanDialogue}
    (done : action.exchange? checkpoint = some exchange) :
    Accepted exchange := by
  cases action with
  | write report =>
      obtain ⟨record, _, rfl⟩ := Option.map_eq_some_iff.mp done
      rfl
  | flush =>
      obtain rfl := Option.some.inj done
      rfl
  | advance block =>
      rw [ScanAction.exchange?] at done
      split at done
      · cases done
      · obtain rfl := Option.some.inj done
        rfl

theorem accepted_of_mem_exchangesOf
    {checkpoint : Checkpoint}
    {actions : List ScanAction}
    {exchange : Exchange ScanDialogue}
    (present : exchange ∈ exchangesOf checkpoint actions) :
    Accepted exchange := by
  induction actions generalizing checkpoint with
  | nil => cases present
  | cons action actions inductionHypothesis =>
      rcases List.mem_append.mp present with now | later
      · exact accepted_of_exchange? (Option.mem_toList.mp now)
      · exact inductionHypothesis later

/-- An exchange in which the question of an action is refused. -/
structure ScanAction.RefusedIn
    (action : ScanAction)
    (checkpoint : Checkpoint)
    (refused : Exchange ScanDialogue) : Prop where
  refusal : ¬ Accepted refused
  asked : ∃ done, action.exchange? checkpoint = some done ∧ done.question = refused.question

/-- How far a list of actions has come: some of them, from the first one on, are done, with a record
for everything that they are to write, and perhaps the next one is refused, which ends everything
with the checkpoint of that moment. -/
inductive Progress (checkpoint : Checkpoint) (ended : Checkpoint → Prop) :
    List ScanAction → List (Exchange ScanDialogue) → Prop
  | underway
      (finished left : List ScanAction)
      (made : none ∉ reportsOf finished) :
      Progress checkpoint ended (finished ++ left) (exchangesOf checkpoint finished)
  | refused
      (finished : List ScanAction)
      (action : ScanAction)
      (left : List ScanAction)
      {exchange : Exchange ScanDialogue}
      (made : none ∉ reportsOf finished)
      (refusal : action.RefusedIn (checkpointAfter checkpoint finished) exchange)
      (stopped : ended (checkpointAfter checkpoint finished)) :
      Progress checkpoint ended (finished ++ action :: left)
        (exchangesOf checkpoint finished ++ [exchange])

/-- An action that is done stands in front of all that follows. -/
theorem Progress.cons
    {checkpoint : Checkpoint}
    {ended : Checkpoint → Prop}
    {action : ScanAction}
    {actions : List ScanAction}
    {conversation : List (Exchange ScanDialogue)}
    (makes : action.report? ≠ some none)
    (later : Progress (action.checkpointAfter checkpoint) ended actions conversation) :
    Progress checkpoint ended (action :: actions)
      ((action.exchange? checkpoint).toList ++ conversation) := by
  have madeToo {finished : List ScanAction} (made : none ∉ reportsOf finished) :
      none ∉ reportsOf (action :: finished) := by
    rw [reportsOf_cons, List.mem_append, Option.mem_toList, not_or]
    exact ⟨makes, made⟩
  cases later with
  | underway finished left made => exact .underway (action :: finished) left (madeToo made)
  | refused finished next left made refusal stopped =>
      rw [← List.append_assoc]
      exact .refused (action :: finished) next left (madeToo made) refusal stopped

/-- At every moment of a list of actions, its conversation is that of some of them, from the first
one on, and of one refusal at most, which is the end. -/
theorem performAll_progress
    {actions : List ScanAction}
    {checkpoint : Checkpoint}
    {conversation : List (Exchange ScanDialogue)}
    {rest : Program ScanDialogue (Except ScanError Unit × Checkpoint)}
    (reached : ((performAll actions).started checkpoint).Reaches conversation rest) :
    Progress checkpoint (fun later => ∃ cause, rest = .done (.error cause, later)) actions
      conversation := by
  induction actions generalizing checkpoint conversation with
  | nil =>
      obtain ⟨rfl, _⟩ := Program.reaches_done_iff.mp reached
      exact .underway [] [] List.not_mem_nil
  | cons action actions inductionHypothesis =>
      rw [performAll_cons] at reached
      rcases action.perform_exchange? checkpoint with
        broken | ⟨makes, ⟨nothing, silent⟩ |
          ⟨question, accepted, outcome, exchanged, asked, replies⟩⟩
      · rw [broken] at reached
        obtain ⟨rfl, _⟩ := Program.reaches_done_iff.mp reached
        exact .underway [] (action :: actions) List.not_mem_nil
      · rw [silent] at reached
        have goOn := (inductionHypothesis reached).cons makes
        rwa [nothing] at goOn
      · rw [asked] at reached
        rcases Program.reaches_ask_iff.mp reached with
          ⟨rfl, rfl⟩ | ⟨reply, later, rfl, reachedLater⟩
        · exact .underway [] (action :: actions) List.not_mem_nil
        · change (Scanning.afterOutcome (fun _ => performAll actions) (outcome reply)).Reaches
            later rest at reachedLater
          rcases replies reply with ⟨rfl, done⟩ | ⟨refusal, cause, failed⟩
          · rw [done] at reachedLater
            have goOn := (inductionHypothesis reachedLater).cons makes
            rwa [exchanged] at goOn
          · rw [failed] at reachedLater
            obtain ⟨rfl, rfl⟩ := Program.reaches_done_iff.mp reachedLater
            exact .refused [] action actions List.not_mem_nil ⟨refusal, _, exchanged, rfl⟩
              ⟨cause, rfl⟩

/-- Following makes progress through its actions. -/
theorem follow_progress
    {backfilled : Nat}
    {events : List LiveEvent}
    {checkpoint : Checkpoint}
    {conversation : List (Exchange ScanDialogue)}
    {rest : Program ScanDialogue (Except ScanError Nat × Checkpoint)}
    (reached : ((follow backfilled events).started checkpoint).Reaches conversation rest) :
    Progress checkpoint (fun later => ∃ cause, rest = .done (.error cause, later))
      (followActions backfilled events) conversation := by
  rw [started_follow, Program.reaches_andThen_done_comp_iff] at reached
  obtain ⟨middle, reachedMiddle, rfl⟩ := reached
  generalize followActions backfilled events = actions at reachedMiddle
  cases performAll_progress reachedMiddle with
  | underway finished left made => exact .underway finished left made
  | refused finished action left made refusal stopped =>
      obtain ⟨cause, rfl⟩ := stopped
      exact .refused finished action left made refusal ⟨cause, rfl⟩

/-! ## Stored blocks -/

theorem eq_advance_of_exchange?
    {action : ScanAction}
    {checkpoint current : Checkpoint}
    {exchange : Exchange ScanDialogue}
    {block : Nat}
    (exchanged : action.exchange? checkpoint = some exchange)
    (stores : exchange.question = .store current block) :
    action = .advance block := by
  cases action with
  | write report =>
      obtain ⟨record, _, rfl⟩ := Option.map_eq_some_iff.mp exchanged
      cases stores
  | flush =>
      obtain rfl := Option.some.inj exchanged
      cases stores
  | advance last =>
      rw [ScanAction.exchange?] at exchanged
      split at exchanged
      · cases exchanged
      · obtain rfl := Option.some.inj exchanged
        injection stores with _ same
        rw [same]

/-- An exchange that stores a block is that of an action which declares the block complete. -/
theorem exists_advance_of_exchangesOf_eq
    {checkpoint current : Checkpoint}
    {actions : List ScanAction}
    {block : Nat}
    {before after : List (Exchange ScanDialogue)}
    {reply : Except FileError Unit}
    (said : exchangesOf checkpoint actions = before ++ ⟨.store current block, reply⟩ :: after) :
    ∃ front back, actions = front ++ .advance block :: back ∧
      before = exchangesOf checkpoint front := by
  induction actions generalizing checkpoint before with
  | nil => simp [exchangesOf] at said
  | cons action actions inductionHypothesis =>
      rw [exchangesOf] at said
      cases exchanged : action.exchange? checkpoint with
      | none =>
          rw [exchanged, Option.toList_none, List.nil_append] at said
          obtain ⟨front, back, rfl, rfl⟩ := inductionHypothesis said
          refine ⟨action :: front, back, rfl, ?_⟩
          rw [exchangesOf, exchanged, Option.toList_none, List.nil_append]
      | some exchange =>
          rw [exchanged, Option.toList_some, List.singleton_append] at said
          cases before with
          | nil =>
              obtain ⟨rfl, rfl⟩ := List.cons.inj said
              obtain rfl := eq_advance_of_exchange? exchanged rfl
              exact ⟨[], actions, rfl, rfl⟩
          | cons first before =>
              obtain ⟨rfl, saidLater⟩ := List.cons.inj said
              obtain ⟨front, back, rfl, rfl⟩ := inductionHypothesis saidLater
              refine ⟨action :: front, back, rfl, ?_⟩
              rw [exchangesOf, exchanged, Option.toList_some, List.singleton_append]

/-- What is written in the exchanges of actions is their reports. -/
theorem written_exchangesOf
    (checkpoint : Checkpoint)
    {actions : List ScanAction}
    (made : none ∉ reportsOf actions) :
    (written (exchangesOf checkpoint actions)).map some = reportsOf actions := by
  induction actions generalizing checkpoint with
  | nil => rfl
  | cons action actions inductionHypothesis =>
      rw [reportsOf_cons, List.mem_append, not_or] at made
      have now : (written (action.exchange? checkpoint).toList).map some =
          action.report?.toList := by
        cases action with
        | write report =>
            cases report with
            | none => exact absurd List.mem_cons_self made.1
            | some record => rfl
        | flush => rfl
        | advance block =>
            rw [ScanAction.exchange?]
            split <;> rfl
      rw [exchangesOf, written_append, List.map_append, now, inductionHypothesis _ made.2,
        reportsOf_cons]

/-- What is stored in the exchanges of actions is the checkpoint after them. -/
theorem stored_exchangesOf
    (checkpoint : Checkpoint)
    (actions : List ScanAction) :
    stored checkpoint (exchangesOf checkpoint actions) = checkpointAfter checkpoint actions := by
  induction actions generalizing checkpoint with
  | nil => rfl
  | cons action actions inductionHypothesis =>
      have now : stored checkpoint (action.exchange? checkpoint).toList =
          action.checkpointAfter checkpoint := by
        cases action with
        | write report => cases report <;> rfl
        | flush => rfl
        | advance block =>
            rw [ScanAction.exchange?, ScanAction.checkpointAfter, Checkpoint.completed]
            split <;> rfl
      rw [exchangesOf, stored_append, now, inductionHypothesis, checkpointAfter_cons]

/-- Blocks are stored in ascending order, all of them beyond the checkpoint at the start. -/
theorem storedBlocks_exchangesOf
    (checkpoint : Checkpoint)
    (actions : List ScanAction) :
    ((exchangesOf checkpoint actions).filterMap storedBlock?).Pairwise (· < ·) ∧
      ∀ block ∈ (exchangesOf checkpoint actions).filterMap storedBlock?,
        checkpoint.covers block = false := by
  induction actions generalizing checkpoint with
  | nil => simp [exchangesOf]
  | cons action actions inductionHypothesis =>
      obtain ⟨ascending, beyond⟩ := inductionHypothesis (action.checkpointAfter checkpoint)
      rw [exchangesOf, List.filterMap_append]
      cases action with
      | write report => cases report <;> exact ⟨ascending, beyond⟩
      | flush => exact ⟨ascending, beyond⟩
      | advance last =>
          have beyondBoth : ∀ block ∈ (exchangesOf (checkpoint.completed last) actions).filterMap
              storedBlock?, checkpoint.covers block = false ∧ last < block := by
            intro block later
            have uncovered := beyond block later
            rw [ScanAction.checkpointAfter, ← Bool.not_eq_true,
              Checkpoint.covers_completed_iff] at uncovered
            simpa using uncovered
          rw [ScanAction.exchange?]
          split
          · exact ⟨ascending, fun block later => (beyondBoth block later).1⟩
          · next uncovered =>
            refine ⟨List.pairwise_cons.mpr ⟨fun block later => (beyondBoth block later).2,
              ascending⟩, ?_⟩
            intro block present
            rcases List.mem_cons.mp present with rfl | later
            · simpa using uncovered
            · exact (beyondBoth block later).1

theorem storedBlock?_of_not_accepted
    {exchange : Exchange ScanDialogue}
    (refusal : ¬ Accepted exchange) :
    storedBlock? exchange = none := by
  obtain ⟨question, reply⟩ := exchange
  cases question with
  | store checkpoint block =>
      cases reply with
      | error cause => rfl
      | ok done => exact absurd rfl refusal
  | _ => rfl

/-- An exchange that has taken place is one of the actions that are done, or the refusal at the
end. -/
theorem Progress.at_exchange
    {checkpoint : Checkpoint}
    {ended : Checkpoint → Prop}
    {actions : List ScanAction}
    {before after : List (Exchange ScanDialogue)}
    {exchange : Exchange ScanDialogue}
    (progress : Progress checkpoint ended actions (before ++ exchange :: after)) :
    (∃ finished left further, actions = finished ++ left ∧ none ∉ reportsOf finished ∧
        exchangesOf checkpoint finished = before ++ exchange :: further) ∨
      ∃ finished action left, actions = finished ++ action :: left ∧ none ∉ reportsOf finished ∧
        before = exchangesOf checkpoint finished ∧ after = [] ∧
        action.RefusedIn (checkpointAfter checkpoint finished) exchange ∧
        ended (checkpointAfter checkpoint finished) := by
  generalize said : before ++ exchange :: after = conversation at progress
  cases progress with
  | underway finished left made => exact .inl ⟨finished, left, after, rfl, made, said.symm⟩
  | refused finished action left made refusal stopped =>
      rcases List.eq_nil_or_concat after with rfl | ⟨further, last, rfl⟩
      · obtain ⟨rfl, same⟩ := List.append_inj' said rfl
        obtain rfl := (List.cons.inj same).1
        exact .inr ⟨finished, action, left, rfl, made, rfl, rfl, refusal, stopped⟩
      · rw [List.concat_eq_append, ← List.cons_append, ← List.append_assoc] at said
        obtain ⟨finishedSaid, -⟩ := List.append_inj' said rfl
        exact .inl ⟨finished, action :: left, further, rfl, made, finishedSaid.symm⟩

/-- What is being done when a block is to be stored, whatever the answer is: the actions in front of
it are done. -/
theorem Progress.exists_advance
    {checkpoint current : Checkpoint}
    {ended : Checkpoint → Prop}
    {actions : List ScanAction}
    {before after : List (Exchange ScanDialogue)}
    {block : Nat}
    {reply : Except FileError Unit}
    (progress : Progress checkpoint ended actions
      (before ++ ⟨.store current block, reply⟩ :: after)) :
    ∃ front back, actions = front ++ .advance block :: back ∧ none ∉ reportsOf front ∧
      before = exchangesOf checkpoint front := by
  rcases progress.at_exchange with
    ⟨finished, left, further, rfl, made, said⟩ |
      ⟨finished, action, left, rfl, made, rfl, _, refusal, _⟩
  · obtain ⟨front, back, rfl, rfl⟩ := exists_advance_of_exchangesOf_eq said
    rw [reportsOf_append, List.mem_append, not_or] at made
    exact ⟨front, back ++ left, by simp, made.1, rfl⟩
  · obtain ⟨done, asked, question⟩ := refusal.asked
    obtain rfl := eq_advance_of_exchange? asked question
    exact ⟨finished, left, rfl, made, rfl⟩

/-- The blocks that are stored ascend, and none was covered before. -/
theorem Progress.storedBlocks
    {checkpoint : Checkpoint}
    {ended : Checkpoint → Prop}
    {actions : List ScanAction}
    {conversation : List (Exchange ScanDialogue)}
    (progress : Progress checkpoint ended actions conversation) :
    (conversation.filterMap storedBlock?).Pairwise (· < ·) ∧
      ∀ block ∈ conversation.filterMap storedBlock?, checkpoint.covers block = false := by
  cases progress with
  | underway finished left made => exact storedBlocks_exchangesOf checkpoint finished
  | refused finished action left made refusal stopped =>
      rw [List.filterMap_append, List.filterMap_cons_none
        (storedBlock?_of_not_accepted refusal.refusal), List.filterMap_nil, List.append_nil]
      exact storedBlocks_exchangesOf checkpoint finished

/-- Nothing follows a refusal. -/
theorem Progress.last_of_refused
    {checkpoint : Checkpoint}
    {ended : Checkpoint → Prop}
    {actions : List ScanAction}
    {before after : List (Exchange ScanDialogue)}
    {refused : Exchange ScanDialogue}
    (progress : Progress checkpoint ended actions (before ++ refused :: after))
    (refusal : ¬ Accepted refused) :
    after = [] ∧ ended (stored checkpoint before) := by
  rcases progress.at_exchange with
    ⟨finished, _, further, _, _, said⟩ | ⟨finished, _, _, _, _, rfl, rfl, _, stopped⟩
  · have present : refused ∈ exchangesOf checkpoint finished := by simp [said]
    exact absurd (accepted_of_mem_exchangesOf present) refusal
  · rw [stored_exchangesOf]
    exact ⟨rfl, stopped⟩

/-! ## Events that are written -/

/-- A standing event is passed over when history covered its block and nothing of a block up to its
own was taken back before it arrived. -/
structure PassedOver
    (backfilled : Nat)
    (past : List LiveEvent)
    (live : LiveEvent) : Prop where
  standing : live.removed = false
  covered : live.block ≤ backfilled
  untouched : ∀ retracted ∈ past, retracted.removed → live.block ≤ retracted.block - 1

theorem Follow.skipThrough_step (state : Follow) (live : LiveEvent) :
    (state.step live).1.skipThrough = state.skipAfter live := by
  rcases state.step_cases live with
    ⟨skipped, stepped⟩ | ⟨_, _, stepped⟩ | ⟨_, _, _, stepped⟩ | ⟨_, _, _, stepped⟩
  · simp only [skips, Bool.and_eq_true, Bool.not_eq_true'] at skipped
    simp [stepped, skipAfter, skipped.1]
  · rw [stepped]
  · rw [stepped]
    rfl
  · rw [stepped]

/-- The blocks that are passed over end in front of every event that was taken back. -/
theorem Follow.le_skipThrough_run_iff
    {state : Follow}
    {events : List LiveEvent}
    {block : Nat} :
    block ≤ (state.run events).1.skipThrough ↔
      block ≤ state.skipThrough ∧
        ∀ retracted ∈ events, retracted.removed → block ≤ retracted.block - 1 := by
  induction events generalizing state with
  | nil => simp [run]
  | cons live events inductionHypothesis =>
      rw [run_cons, inductionHypothesis, skipThrough_step, skipAfter, List.forall_mem_cons]
      cases live.removed with
      | true => simp only [reduceIte, Nat.le_min, and_assoc, forall_const]
      | false => simp

theorem Follow.skips_run_iff
    {backfilled : Nat}
    {past : List LiveEvent}
    {live : LiveEvent} :
    ((start backfilled).run past).1.skips live ↔ PassedOver backfilled past live := by
  rw [skips, Bool.and_eq_true, Bool.not_eq_true', decide_eq_true_iff, le_skipThrough_run_iff]
  constructor
  · rintro ⟨standing, covered, untouched⟩
    exact ⟨standing, covered, untouched⟩
  · rintro ⟨standing, covered, untouched⟩
    exact ⟨standing, covered, untouched⟩

/-- An event is taken when it is not passed over and no event of its place and flag came before
it. -/
theorem mem_taken_of_new
    {backfilled : Nat}
    {past : List LiveEvent}
    (next : List LiveEvent)
    {live : LiveEvent}
    (heeded : ¬ PassedOver backfilled past live)
    (new : ∀ same ∈ past, EventIdentity.ofLive same ≠ .ofLive live) :
    live ∈ (Follow.start backfilled).taken (past ++ live :: next) := by
  have notSkipped : ((Follow.start backfilled).run past).1.skips live = false := by
    rw [← Bool.not_eq_true, Follow.skips_run_iff]
    exact heeded
  have notSeen : ((Follow.start backfilled).run past).1.hasSeen live = false := by
    rw [← Bool.not_eq_true, Follow.hasSeen_iff]
    intro remembered
    have followed := followed_run backfilled past
    obtain ⟨same, takenBefore, equal⟩ := followed.taken_of_seen _ remembered
    exact new same (followed.arrived same takenBefore) equal
  rw [Follow.taken_append, Follow.taken, notSkipped, notSeen]
  simp

/-- An event that declares a block complete begins the next one, and a flush is done for it
first. -/
theorem Follow.eq_of_step_eq_append_advance
    {state : Follow}
    {live : LiveEvent}
    {front back : List ScanAction}
    {block : Nat}
    (split : (state.step live).2 = front ++ .advance block :: back) :
    live.block = block + 1 ∧ state.completes live ∧ front = [.flush] := by
  have advanced : .advance block ∈ (state.step live).2 := by simp [split]
  refine ⟨eq_of_advance_mem_step advanced, ?_⟩
  rcases state.step_cases live with
    ⟨_, stepped⟩ | ⟨_, _, stepped⟩ | ⟨_, _, completing, stepped⟩ | ⟨_, _, _, stepped⟩
  · simp [stepped] at advanced
  · simp [stepped] at advanced
  · refine ⟨completing, ?_⟩
    rw [stepped] at split
    rcases front with _ | ⟨first, _ | ⟨second, _ | ⟨third, further⟩⟩⟩ <;> simp at split
    rw [split.1]
  · simp [stepped] at advanced

/-- A block is declared complete for one event that begins the next block, behind the actions for
all events in front of it and a flush. -/
theorem Follow.exists_event_of_advance
    {state : Follow}
    {events : List LiveEvent}
    {front back : List ScanAction}
    {block : Nat}
    (split : (state.run events).2 ++ [.flush] = front ++ .advance block :: back) :
    ∃ earlier live later, events = earlier ++ live :: later ∧ live.block = block + 1 ∧
      (state.run earlier).1.completes live ∧ front = (state.run earlier).2 ++ [.flush] := by
  induction events generalizing state front with
  | nil =>
      have present : ScanAction.advance block ∈ (state.run []).2 ++ [.flush] := by simp [split]
      simp [run] at present
  | cons live events inductionHypothesis =>
      have amongLater {further : List ScanAction}
          (splitLater : ((state.step live).1.run events).2 ++ [.flush] =
            further ++ .advance block :: back) :
          ∃ earlier inHand later, live :: events = earlier ++ inHand :: later ∧
            inHand.block = block + 1 ∧ (state.run earlier).1.completes inHand ∧
            (state.step live).2 ++ further = (state.run earlier).2 ++ [.flush] := by
        obtain ⟨earlier, inHand, later, rfl, next, completing, rfl⟩ :=
          inductionHypothesis splitLater
        refine ⟨live :: earlier, inHand, later, rfl, next, completing, ?_⟩
        rw [run_cons, List.append_assoc]
      rw [run_cons, List.append_assoc] at split
      rcases List.append_eq_append_iff.mp split with
        ⟨further, rfl, splitLater⟩ | ⟨_ | ⟨action, rest⟩, stepped, behind⟩
      · exact amongLater splitLater
      · rw [List.append_nil] at stepped
        rw [← stepped, ← List.append_nil (state.step live).2]
        exact amongLater behind.symm
      · obtain ⟨rfl, -⟩ := List.cons.inj behind
        obtain ⟨next, completing, rfl⟩ := eq_of_step_eq_append_advance stepped
        exact ⟨[], live, events, rfl, next, completing, rfl⟩

/-- All that was to be written for some events is written: the records of exactly those that are
neither passed over nor recognised, and hence of each one that is the first of its place and
flag. -/
structure WrittenFor
    (backfilled : Nat)
    (events : List LiveEvent)
    (conversation : List (Exchange ScanDialogue)) : Prop where
  exactly : (written conversation).map some =
    ((Follow.start backfilled).taken events).map EventRecord.ofLive?
  complete : ∀ past live next, events = past ++ live :: next → ¬ PassedOver backfilled past live →
    (∀ same ∈ past, EventIdentity.ofLive same ≠ .ofLive live) →
      ∃ record ∈ written conversation, EventRecord.ofLive? live = some record

/-- The exchanges of following write what is to be written for the events. -/
theorem writtenFor_exchangesOf_run
    {backfilled : Nat}
    {events : List LiveEvent}
    (made : none ∉ reportsOf ((Follow.start backfilled).run events).2)
    (checkpoint : Checkpoint) :
    WrittenFor backfilled events
      (exchangesOf checkpoint ((Follow.start backfilled).run events).2) := by
  have exactly := (written_exchangesOf checkpoint made).trans (Follow.reportsOf_run _ _)
  refine ⟨exactly, ?_⟩
  rintro past live next rfl heeded new
  exact EventRecord.exists_record_of_mem exactly (mem_taken_of_new next heeded new)

section Follow

variable
  {backfilled : Nat}
  {events : List LiveEvent}
  {checkpoint : Checkpoint}
  {conversation : List (Exchange ScanDialogue)}
  {rest : Program ScanDialogue (Except ScanError Nat × Checkpoint)}

/-- Whenever a block is to be stored, the event in hand is the first one beyond it, and the
conversation so far ends with a flush of all that was to be written for the events in front. -/
theorem follow_flushed_before_store
    {before after : List (Exchange ScanDialogue)}
    {current : Checkpoint}
    {block : Nat}
    {reply : Except FileError Unit}
    (reached : ((follow backfilled events).started checkpoint).Reaches
      (before ++ ⟨.store current block, reply⟩ :: after) rest) :
    ∃ earlier live later front, events = earlier ++ live :: later ∧
      live.removed = false ∧ highest backfilled earlier < live.block ∧ live.block = block + 1 ∧
      before = front ++ [⟨.flush, .ok ()⟩] ∧ WrittenFor backfilled earlier front := by
  obtain ⟨front, back, split, made, rfl⟩ := (follow_progress reached).exists_advance
  obtain ⟨earlier, live, later, rfl, next, completing, rfl⟩ := Follow.exists_event_of_advance split
  obtain ⟨standing, higher⟩ := (followed_run backfilled earlier).completes_eq_true_iff.mp completing
  rw [reportsOf_append, List.mem_append, not_or] at made
  refine ⟨earlier, live, later, _, rfl, standing, higher, next, ?_,
    writtenFor_exchangesOf_run made.1 checkpoint⟩
  rw [exchangesOf_append]
  rfl

/-- Following events makes them durable before the checkpoint covers them. Whenever a block is to be
stored, the event in hand is the first one beyond it, and the conversation so far ends with a flush
of all that was to be written for the events in front. The stored blocks ascend from beyond the
checkpoint at the start, and a refusal is the last thing that happens. -/
theorem follow_durable
    (reached : ((follow backfilled events).started checkpoint).Reaches conversation rest) :
    (∀ before current block reply after,
        conversation = before ++ ⟨.store current block, reply⟩ :: after →
        ∃ earlier live later front, events = earlier ++ live :: later ∧
          live.removed = false ∧ highest backfilled earlier < live.block ∧
          live.block = block + 1 ∧ before = front ++ [⟨.flush, .ok ()⟩] ∧
          WrittenFor backfilled earlier front) ∧
      (conversation.filterMap storedBlock?).Pairwise (· < ·) ∧
      (∀ block ∈ conversation.filterMap storedBlock?, checkpoint.covers block = false) ∧
      ∀ before refused after, conversation = before ++ refused :: after → ¬ Accepted refused →
        after = [] ∧ ∃ cause, rest = .done (.error cause, stored checkpoint before) := by
  have progress := follow_progress reached
  refine ⟨?_, progress.storedBlocks.1, progress.storedBlocks.2, ?_⟩
  · rintro before current block reply after rfl
    exact follow_flushed_before_store reached
  · rintro before refused after rfl refusal
    exact progress.last_of_refused refusal

end Follow

/-- The conversation of following two events when the output refuses the second one. -/
def refusedConversation : List (Exchange ScanDialogue) :=
  [⟨.flush, .ok ()⟩,
    ⟨.write (.sample 11 0 false), .ok ()⟩,
    ⟨.flush, .ok ()⟩,
    ⟨.store ⟨"checkpoint.json", 1, some 10⟩ 11, .ok ()⟩,
    ⟨.write (.sample 12 0 false), .error (.output "events.jsonl" .noSpace)⟩]

/-- The first event is flushed before its block is stored, and nothing follows the refusal. -/
theorem refusedConversation_durable :
    ((follow 10 [.sample 11 0 false, .sample 12 0 false]).started
        ⟨"checkpoint.json", 1, some 10⟩).Reaches refusedConversation
        (.done (.error (.output "events.jsonl" .noSpace), ⟨"checkpoint.json", 1, some 11⟩)) ∧
      (∃ earlier live later front,
        [.sample 11 0 false, .sample 12 0 false] = earlier ++ live :: later ∧
        live.removed = false ∧ highest 10 earlier < live.block ∧ live.block = 11 + 1 ∧
        refusedConversation.take 3 = front ++ [⟨.flush, .ok ()⟩] ∧ WrittenFor 10 earlier front) ∧
      (refusedConversation.filterMap storedBlock?).Pairwise (· < ·) := by
  have reached : ((follow 10 [.sample 11 0 false, .sample 12 0 false]).started
      ⟨"checkpoint.json", 1, some 10⟩).Reaches refusedConversation
      (.done (.error (.output "events.jsonl" .noSpace), ⟨"checkpoint.json", 1, some 11⟩)) :=
    .turn _ (.turn _ (.turn _ (.turn _ (.turn _ (.start _)))))
  obtain ⟨flushed, ascending, _⟩ := follow_durable reached
  exact ⟨reached, flushed _ ⟨"checkpoint.json", 1, some 10⟩ 11 (.ok ()) _ rfl, ascending⟩

end Scan
end Valset
