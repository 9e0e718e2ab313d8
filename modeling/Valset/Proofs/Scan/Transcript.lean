import Valset.Proofs.Conversation
import Valset.Scan.Dialogue

/-!
# What a scan has done

The records and the checkpoint that a conversation of a scan left behind, and what becomes of a list
of actions: at every moment some of them, from the first one on, have been done and nothing else has
happened.
-/

namespace Valset
namespace Scan

variable {α β : Type}

/-- A step of a scan as a program, from the checkpoint with which it starts. -/
def Scanning.started
    (step : Scanning α)
    (checkpoint : Checkpoint) :
    Program ScanDialogue (Except ScanError α × Checkpoint) :=
  step.run.run checkpoint

/-- What a scan does after a step: it goes on with the result or keeps the error. -/
def Scanning.afterOutcome
    (next : α → Scanning β) :
    Except ScanError α × Checkpoint → Program ScanDialogue (Except ScanError β × Checkpoint)
  | (.ok value, checkpoint) => (next value).started checkpoint
  | (.error error, checkpoint) => .done (.error error, checkpoint)

/-- A scan goes on with its outcome and its checkpoint. -/
theorem Scanning.started_bind
    (step : Scanning α)
    (next : α → Scanning β)
    (checkpoint : Checkpoint) :
    Scanning.started (step >>= next) checkpoint =
      (step.started checkpoint).andThen (Scanning.afterOutcome next) := by
  change Program.andThen _ _ = _
  congr 1
  funext ⟨result, later⟩
  cases result <;> rfl

/-- The record that an exchange brought to the output. -/
def writtenRecord? : Exchange ScanDialogue → Option EventRecord
  | ⟨.write record, .ok ()⟩ => some record
  | _ => none

/-- The records that a conversation brought to the output. -/
def written (conversation : List (Exchange ScanDialogue)) : List EventRecord :=
  conversation.filterMap writtenRecord?

@[simp] theorem written_nil : written [] = [] := rfl

/-- What was written in two parts of a conversation was written in the whole. -/
@[simp] theorem written_append
    (first second : List (Exchange ScanDialogue)) :
    written (first ++ second) = written first ++ written second := by
  simp [written]

/-- The block that an exchange stored. -/
def storedBlock? : Exchange ScanDialogue → Option Nat
  | ⟨.store _ block, .ok ()⟩ => some block
  | _ => none

/-- The stored checkpoint after a conversation. -/
def stored
    (checkpoint : Checkpoint)
    (conversation : List (Exchange ScanDialogue)) : Checkpoint :=
  (conversation.filterMap storedBlock?).foldl
    (fun current block => { current with block := some block }) checkpoint

@[simp] theorem stored_nil (checkpoint : Checkpoint) : stored checkpoint [] = checkpoint := rfl

/-- The checkpoint that was stored last goes from one part of a conversation to the next. -/
@[simp] theorem stored_append
    (checkpoint : Checkpoint)
    (first second : List (Exchange ScanDialogue)) :
    stored checkpoint (first ++ second) = stored (stored checkpoint first) second := by
  simp [stored]

/-- An exchange in which the output or the file did not refuse what it was given. -/
def Accepted : Exchange ScanDialogue → Prop
  | ⟨.write _, reply⟩ => reply = .ok ()
  | ⟨.flush, reply⟩ => reply = .ok ()
  | ⟨.store _ _, reply⟩ => reply = .ok ()
  | _ => True

/-- The checkpoint once a block is complete. -/
def Checkpoint.completed (checkpoint : Checkpoint) (block : Nat) : Checkpoint :=
  if checkpoint.covers block then checkpoint else { checkpoint with block := some block }

@[simp] theorem Checkpoint.path_completed (checkpoint : Checkpoint) (block : Nat) :
    (checkpoint.completed block).path = checkpoint.path := by
  rw [completed]
  split <;> rfl

@[simp] theorem Checkpoint.chain_completed (checkpoint : Checkpoint) (block : Nat) :
    (checkpoint.completed block).chain = checkpoint.chain := by
  rw [completed]
  split <;> rfl

/-- A block is covered after another one is complete if it was before or is in front of it. -/
theorem Checkpoint.covers_completed_iff
    {checkpoint : Checkpoint}
    {block other : Nat} :
    (checkpoint.completed block).covers other ↔ checkpoint.covers other ∨ other ≤ block := by
  rcases checkpoint with ⟨path, chain, _ | current⟩
  · simp [completed, covers]
  · by_cases covered : block ≤ current
    · simp [completed, covers, covered]
      omega
    · simp [completed, covers, covered]
      omega

namespace ScanAction

/-- What an action is to write, if it is to write something: a record, if one could be made. -/
def report? : ScanAction → Option (Option EventRecord)
  | .write record => some record
  | _ => none

/-- The checkpoint after an action. -/
def checkpointAfter (checkpoint : Checkpoint) : ScanAction → Checkpoint
  | .advance block => checkpoint.completed block
  | _ => checkpoint

/-- A checkpoint is advanced and remembered. -/
theorem started_advance
    (checkpoint : Checkpoint)
    (block : Nat) :
    (perform (.advance block)).started checkpoint =
      Scanning.started
        ((Checkpoint.advance storeBlock checkpoint block).scanning >>= set) checkpoint :=
  rfl

/-- A record that can be made is written with one question. -/
theorem started_write
    (record : EventRecord)
    (checkpoint : Checkpoint) :
    (perform (.write (some record))).started checkpoint =
      .ask (.write record) fun reply => .done (reply, checkpoint) := by
  change Program.ask _ _ = _
  congr 1
  funext reply
  cases reply <;> rfl

/-- A flush is one question. -/
theorem started_flush (checkpoint : Checkpoint) :
    (perform .flush).started checkpoint =
      .ask .flush fun reply => .done (reply, checkpoint) := by
  change Program.ask _ _ = _
  congr 1
  funext reply
  cases reply <;> rfl

/-- Nothing is stored for a block that is complete already. -/
theorem started_advance_of_covers
    {checkpoint : Checkpoint}
    {block : Nat}
    (covered : checkpoint.covers block) :
    (perform (.advance block)).started checkpoint = .done (.ok (), checkpoint) := by
  rw [started_advance, Checkpoint.advance, if_pos covered]
  rfl

/-- A block that is not covered is stored, and the checkpoint moves on once it is. -/
theorem started_advance_of_not_covers
    {checkpoint : Checkpoint}
    {block : Nat}
    (uncovered : checkpoint.covers block = false) :
    (perform (.advance block)).started checkpoint =
      .ask (.store checkpoint block) fun reply => .done (match reply with
        | .ok () => (.ok (), { checkpoint with block := some block })
        | .error cause => (.error (.file cause), checkpoint)) := by
  rw [started_advance, Checkpoint.advance, if_neg (by simp [uncovered])]
  change Program.ask _ _ = _
  congr 1
  funext reply
  cases reply <;> rfl

/-- An exchange that does all of an action. -/
structure DoneBy
    (action : ScanAction)
    (checkpoint : Checkpoint)
    (exchange : Exchange ScanDialogue)
    (outcome : Except ScanError Unit × Checkpoint) : Prop where
  accepted : Accepted exchange
  written : (written [exchange]).map some = action.report?.toList
  stored : stored checkpoint [exchange] = action.checkpointAfter checkpoint
  outcome : outcome = (.ok (), action.checkpointAfter checkpoint)

/-- An exchange that ends an action with an error and changes nothing. -/
structure RefusedBy
    (checkpoint : Checkpoint)
    (exchange : Exchange ScanDialogue)
    (outcome : Except ScanError Unit × Checkpoint) : Prop where
  refused : ¬ Accepted exchange
  written : written [exchange] = []
  stored : stored checkpoint [exchange] = checkpoint
  outcome : ∃ cause, outcome = (.error cause, checkpoint)

/-- An action has nothing to do, or has nothing to write where it should, or asks one question and
does all or nothing according to the answer. -/
theorem perform_cases
    (action : ScanAction)
    (checkpoint : Checkpoint) :
    (action.perform.started checkpoint = .done (.ok (), checkpoint) ∧
        action.report? = none ∧ action.checkpointAfter checkpoint = checkpoint) ∨
      (action.perform.started checkpoint = .done (.error .indexOverflow, checkpoint) ∧
        action.report? = some none) ∨
      ∃ (question : ScanQuestion)
        (outcome : question.Reply → Except ScanError Unit × Checkpoint),
        action.perform.started checkpoint = .ask question (fun reply => .done (outcome reply)) ∧
        (∃ reply, Accepted ⟨question, reply⟩) ∧
        ∀ reply, action.DoneBy checkpoint ⟨question, reply⟩ (outcome reply) ∨
          RefusedBy checkpoint ⟨question, reply⟩ (outcome reply) := by
  cases action with
  | write report =>
      cases report with
      | none => exact .inr (.inl ⟨rfl, rfl⟩)
      | some record =>
          refine .inr (.inr ⟨.write record, _, started_write record checkpoint, ⟨.ok (), rfl⟩, ?_⟩)
          rintro (cause | value)
          · exact .inr ⟨by simp [Accepted], rfl, rfl, cause, rfl⟩
          · exact .inl ⟨rfl, rfl, rfl, rfl⟩
  | flush =>
      refine .inr (.inr ⟨.flush, _, started_flush checkpoint, ⟨.ok (), rfl⟩, ?_⟩)
      rintro (cause | value)
      · exact .inr ⟨by simp [Accepted], rfl, rfl, cause, rfl⟩
      · exact .inl ⟨rfl, rfl, rfl, rfl⟩
  | advance block =>
      by_cases covered : checkpoint.covers block
      · exact .inl ⟨started_advance_of_covers covered, rfl,
          by simp [checkpointAfter, Checkpoint.completed, covered]⟩
      · have after : checkpointAfter checkpoint (.advance block) =
            { checkpoint with block := some block } := by
          simp [checkpointAfter, Checkpoint.completed, covered]
        refine .inr (.inr ⟨.store checkpoint block, _,
          started_advance_of_not_covers (by simpa using covered), ⟨.ok (), rfl⟩, ?_⟩)
        rintro (cause | value)
        · exact .inr ⟨by simp [Accepted], rfl, rfl, _, rfl⟩
        · exact .inl ⟨rfl, rfl, after.symm, by rw [after]⟩

end ScanAction

/-- What actions are to write. -/
def reportsOf (actions : List ScanAction) : List (Option EventRecord) :=
  actions.filterMap ScanAction.report?

@[simp] theorem reportsOf_nil : reportsOf [] = [] := rfl

@[simp] theorem reportsOf_cons
    (action : ScanAction)
    (actions : List ScanAction) :
    reportsOf (action :: actions) = action.report?.toList ++ reportsOf actions := by
  cases reported : action.report? <;> simp [reportsOf, reported]

/-- The reports of actions one after the other are in their order. -/
@[simp] theorem reportsOf_append
    (first second : List ScanAction) :
    reportsOf (first ++ second) = reportsOf first ++ reportsOf second := by
  simp [reportsOf]

/-- The checkpoint after actions. -/
def checkpointAfter (checkpoint : Checkpoint) (actions : List ScanAction) : Checkpoint :=
  actions.foldl ScanAction.checkpointAfter checkpoint

@[simp] theorem checkpointAfter_nil (checkpoint : Checkpoint) :
    checkpointAfter checkpoint [] = checkpoint := rfl

@[simp] theorem checkpointAfter_cons
    (checkpoint : Checkpoint)
    (action : ScanAction)
    (actions : List ScanAction) :
    checkpointAfter checkpoint (action :: actions) =
      checkpointAfter (action.checkpointAfter checkpoint) actions := rfl

/-- What is covered after actions was covered before, or one of the actions declared a block
complete that lies at it or beyond. -/
theorem covers_checkpointAfter_iff
    {checkpoint : Checkpoint}
    {actions : List ScanAction}
    {block : Nat} :
    (checkpointAfter checkpoint actions).covers block ↔
      checkpoint.covers block ∨ ∃ last, .advance last ∈ actions ∧ block ≤ last := by
  induction actions generalizing checkpoint with
  | nil => simp [checkpointAfter]
  | cons action actions inductionHypothesis =>
      rw [checkpointAfter_cons, inductionHypothesis]
      cases action with
      | write record => simp [ScanAction.checkpointAfter]
      | flush => simp [ScanAction.checkpointAfter]
      | advance last =>
          rw [ScanAction.checkpointAfter, Checkpoint.covers_completed_iff, or_assoc]
          constructor
          · rintro (covered | reached | ⟨other, present, reached⟩)
            · exact .inl covered
            · exact .inr ⟨last, List.mem_cons_self, reached⟩
            · exact .inr ⟨other, List.mem_cons_of_mem _ present, reached⟩
          · rintro (covered | ⟨other, present, reached⟩)
            · exact .inl covered
            · rcases List.mem_cons.mp present with equal | inRest
              · injection equal with equal
                exact .inr (.inl (equal ▸ reached))
              · exact .inr (.inr ⟨other, inRest, reached⟩)

/-- Actions are done one after the other. -/
theorem performAll_cons
    (action : ScanAction)
    (actions : List ScanAction)
    (checkpoint : Checkpoint) :
    (performAll (action :: actions)).started checkpoint =
      (action.perform.started checkpoint).andThen
        (Scanning.afterOutcome fun _ => performAll actions) :=
  Scanning.started_bind _ _ _

/-- At every moment some actions, from the first one on, are done and no other one has left a
trace; what they are to write are records, and these have been written. They are all done when the
list ends without an error. -/
theorem performAll_reaches
    {actions : List ScanAction}
    {checkpoint : Checkpoint}
    {conversation : List (Exchange ScanDialogue)}
    {rest : Program ScanDialogue (Except ScanError Unit × Checkpoint)}
    (reached : ((performAll actions).started checkpoint).Reaches conversation rest) :
    ∃ finished left, actions = finished ++ left ∧
      (written conversation).map some = reportsOf finished ∧
      stored checkpoint conversation = checkpointAfter checkpoint finished ∧
      ∀ later, rest = .done (.ok (), later) →
        left = [] ∧ later = checkpointAfter checkpoint actions := by
  induction actions generalizing checkpoint conversation with
  | nil =>
      obtain ⟨rfl, rfl⟩ := Program.reaches_done_iff.mp reached
      refine ⟨[], [], rfl, rfl, rfl, ?_⟩
      intro later equal
      injection equal with equal
      injection equal with _ equal
      exact ⟨rfl, equal.symm⟩
  | cons action actions inductionHypothesis =>
      rw [performAll_cons] at reached
      rcases action.perform_cases checkpoint with
        ⟨silent, noReport, unchanged⟩ | ⟨broken, -⟩ | ⟨question, outcome, asked, _, replies⟩
      · rw [silent] at reached
        obtain ⟨finished, left, rfl, recorded, kept, ended⟩ := inductionHypothesis reached
        refine ⟨action :: finished, left, rfl, ?_, ?_, ?_⟩
        · rw [recorded, reportsOf_cons, noReport, Option.toList_none, List.nil_append]
        · rw [kept, checkpointAfter_cons, unchanged]
        · rw [checkpointAfter_cons, unchanged]
          exact ended
      · rw [broken] at reached
        obtain ⟨rfl, rfl⟩ := Program.reaches_done_iff.mp reached
        exact ⟨[], action :: actions, rfl, rfl, rfl, by simp⟩
      · rw [asked] at reached
        rcases Program.reaches_ask_iff.mp reached with
          ⟨rfl, rfl⟩ | ⟨reply, later, rfl, reachedLater⟩
        · exact ⟨[], action :: actions, rfl, rfl, rfl, by simp⟩
        · change (Scanning.afterOutcome (fun _ => performAll actions) (outcome reply)).Reaches
            later rest at reachedLater
          rcases replies reply with done | refused
          · rw [done.outcome] at reachedLater
            obtain ⟨finished, left, rfl, recorded, kept, ended⟩ := inductionHypothesis reachedLater
            refine ⟨action :: finished, left, rfl, ?_, ?_, ended⟩
            · rw [← List.singleton_append, written_append, List.map_append, recorded, done.written,
                reportsOf_cons]
            · rw [← List.singleton_append, stored_append, done.stored, kept]
              rfl
          · obtain ⟨cause, failed⟩ := refused.outcome
            rw [failed] at reachedLater
            obtain ⟨rfl, rfl⟩ := Program.reaches_done_iff.mp reachedLater
            exact ⟨[], action :: actions, rfl, by rw [refused.written]; rfl, refused.stored,
              by simp⟩

/-- A list of actions ends without an error when all records could be made and nothing is
refused. -/
theorem performAll_finishes
    {actions : List ScanAction}
    {checkpoint : Checkpoint}
    {conversation : List (Exchange ScanDialogue)}
    {result : Except ScanError Unit × Checkpoint}
    (made : none ∉ reportsOf actions)
    (finished : ((performAll actions).started checkpoint).Reaches conversation (.done result))
    (accepted : ∀ exchange ∈ conversation, Accepted exchange) :
    result = (.ok (), checkpointAfter checkpoint actions) := by
  induction actions generalizing checkpoint conversation with
  | nil =>
      obtain ⟨_, equal⟩ := Program.reaches_done_iff.mp finished
      injection equal
  | cons action actions inductionHypothesis =>
      rw [performAll_cons] at finished
      rw [reportsOf_cons, List.mem_append, not_or] at made
      rcases action.perform_cases checkpoint with
        ⟨silent, _, unchanged⟩ | ⟨-, broken⟩ | ⟨question, outcome, asked, _, replies⟩
      · rw [silent] at finished
        rw [inductionHypothesis made.2 finished accepted, checkpointAfter_cons, unchanged]
      · exact absurd (by simp [broken]) made.1
      · rw [asked] at finished
        rcases Program.reaches_ask_iff.mp finished with
          ⟨_, impossible⟩ | ⟨reply, later, rfl, finishedLater⟩
        · cases impossible
        · change (Scanning.afterOutcome (fun _ => performAll actions) (outcome reply)).Reaches
            later _ at finishedLater
          rcases replies reply with done | refused
          · rw [done.outcome] at finishedLater
            exact inductionHypothesis made.2 finishedLater fun exchange present =>
              accepted exchange (List.mem_cons_of_mem _ present)
          · exact absurd (accepted _ List.mem_cons_self) refused.refused

/-- Any number of actions, from the first one on, may be all that is done, if their records could
be made. -/
theorem exists_performAll_reaches
    {finished : List ScanAction}
    (made : none ∉ reportsOf finished)
    (left : List ScanAction)
    (checkpoint : Checkpoint) :
    ∃ conversation,
      ((performAll (finished ++ left)).started checkpoint).Reaches conversation
        ((performAll left).started (checkpointAfter checkpoint finished)) ∧
      (written conversation).map some = reportsOf finished ∧
      stored checkpoint conversation = checkpointAfter checkpoint finished := by
  induction finished generalizing checkpoint with
  | nil => exact ⟨[], .start _, rfl, rfl⟩
  | cons action finished inductionHypothesis =>
      rw [reportsOf_cons, List.mem_append, not_or] at made
      obtain ⟨conversation, reached, recorded, kept⟩ :=
        inductionHypothesis made.2 (action.checkpointAfter checkpoint)
      rw [List.cons_append, performAll_cons]
      rcases action.perform_cases checkpoint with
        ⟨silent, noReport, unchanged⟩ | ⟨-, broken⟩ |
          ⟨question, outcome, asked, ⟨reply, accepted⟩, replies⟩
      · rw [unchanged] at reached kept
        refine ⟨conversation, ?_, ?_, ?_⟩
        · rw [silent, checkpointAfter_cons, unchanged]
          exact reached
        · rw [recorded, reportsOf_cons, noReport, Option.toList_none, List.nil_append]
        · rw [kept, checkpointAfter_cons, unchanged]
      · exact absurd (by simp [broken]) made.1
      · rcases replies reply with done | refused
        · refine ⟨⟨question, reply⟩ :: conversation, ?_, ?_, ?_⟩
          · rw [asked]
            refine .turn reply ?_
            change (Scanning.afterOutcome (fun _ => performAll (finished ++ left))
              (outcome reply)).Reaches conversation _
            rw [done.outcome]
            exact reached
          · rw [← List.singleton_append, written_append, List.map_append, recorded, done.written,
              reportsOf_cons]
          · rw [← List.singleton_append, stored_append, done.stored, kept]
            rfl
        · exact absurd accepted refused.refused

end Scan
end Valset
