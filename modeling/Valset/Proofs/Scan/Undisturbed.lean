import Valset.Proofs.Scan.Transcript
import Valset.Scan.Scanner

/-!
# Undisturbed scans

What a scan does when nothing goes wrong around it. The subscriptions are made, the node answers
every question for logs from one chain of blocks, and the output and the file of the checkpoint
refuse nothing. Each step then comes to its end with a known result, and the steps are put together
as they follow each other.
-/

namespace Valset

/-- Whether a filter asks for a log. -/
def LogFilter.selects (filter : LogFilter) (log : Log) : Bool :=
  (match filter.addresses with
    | none | some [] => true
    | some addresses => addresses.contains log.address) &&
  filter.topics.isPrefixOf log.topics &&
  filter.fromBlock.all (· ≤ log.blockNumber) &&
  filter.toBlock.all (log.blockNumber ≤ ·)

namespace Scan

variable {α β : Type}

/-- An exchange in which nothing goes wrong, with a node that has a chain of logs and a head and
with subscriptions that bring some logs. -/
def Undisturbed
    (chain : List Log)
    (head : UInt64)
    (logs : List Log) : Exchange ScanDialogue → Prop
  | ⟨.subscribe _, reply⟩ => reply = .ok ()
  | ⟨.node .blockNumber, reply⟩ => reply = .ok head
  | ⟨.node (.logs filter), reply⟩ => reply = .ok (chain.filter filter.selects)
  | ⟨.deliveries, reply⟩ => reply = logs
  | exchange => Accepted exchange

theorem Undisturbed.accepted
    {chain logs : List Log}
    {head : UInt64}
    {exchange : Exchange ScanDialogue}
    (undisturbed : Undisturbed chain head logs exchange) :
    Accepted exchange := by
  rcases exchange with ⟨question, reply⟩
  cases question with
  | connect => trivial
  | node question => trivial
  | subscribe address => trivial
  | deliveries => trivial
  | write record => exact undisturbed
  | flush => exact undisturbed
  | load path chain => trivial
  | store checkpoint block => exact undisturbed

theorem Undisturbed.answerable
    (chain logs : List Log)
    (head : UInt64)
    (question : ScanQuestion) :
    ∃ reply, Undisturbed chain head logs ⟨question, reply⟩ := by
  cases question with
  | connect => exact ⟨.ok (), trivial⟩
  | node question =>
      cases question with
      | chainId => exact ⟨.ok (0 : UInt64), trivial⟩
      | blockNumber => exact ⟨.ok head, rfl⟩
      | call contract data => exact ⟨.ok ([] : Bytes), trivial⟩
      | logs filter => exact ⟨_, rfl⟩
      | send transaction => exact ⟨.ok (.zero : Hash32), trivial⟩
      | receipt hash => exact ⟨.ok (none : Option Receipt), trivial⟩
  | subscribe address => exact ⟨.ok (), rfl⟩
  | deliveries => exact ⟨logs, rfl⟩
  | write record => exact ⟨.ok (), rfl⟩
  | flush => exact ⟨.ok (), rfl⟩
  | load path chain => exact ⟨.ok (.empty path chain), trivial⟩
  | store checkpoint block => exact ⟨.ok (), rfl⟩

/-- In exchanges of one kind a step comes to its end with a value and a checkpoint, and brings
records to the output. -/
def Scanning.Yields
    (kind : Exchange ScanDialogue → Prop)
    (step : Scanning α)
    (checkpoint : Checkpoint)
    (outcome : α × Checkpoint)
    (records : List EventRecord) : Prop :=
  ∀ conversation result, (step.started checkpoint).Reaches conversation (.done result) →
    (∀ exchange ∈ conversation, kind exchange) →
    result = (.ok outcome.1, outcome.2) ∧ written conversation = records

namespace Scanning

variable
  {kind : Exchange ScanDialogue → Prop}
  {checkpoint middle : Checkpoint}
  {value : α}
  {records further : List EventRecord}

theorem Yields.bind
    {step : Scanning α}
    {next : α → Scanning β}
    {outcome : β × Checkpoint}
    (first : step.Yields kind checkpoint (value, middle) records)
    (second : (next value).Yields kind middle outcome further) :
    (step >>= next).Yields kind checkpoint outcome (records ++ further) := by
  intro conversation result ended all
  rw [started_bind, Program.reaches_andThen_done_iff] at ended
  obtain ⟨between, front, back, rfl, endedFirst, endedSecond⟩ := ended
  obtain ⟨rfl, writtenFirst⟩ := first front between endedFirst fun exchange present =>
    all exchange (List.mem_append_left _ present)
  obtain ⟨finished, writtenSecond⟩ := second back result endedSecond fun exchange present =>
    all exchange (List.mem_append_right _ present)
  exact ⟨finished, by rw [written_append, writtenFirst, writtenSecond]⟩

/-- A step without questions. -/
theorem yields_of_started_done
    {step : Scanning α}
    (silent : step.started checkpoint = .done (.ok value, middle)) :
    step.Yields kind checkpoint (value, middle) [] := by
  intro conversation result ended _
  rw [silent, Program.reaches_done_iff] at ended
  obtain ⟨rfl, finished⟩ := ended
  injection finished with finished
  exact ⟨finished, rfl⟩

/-- A step with one question that brings nothing to the output. -/
theorem yields_of_started_ask
    {step : Scanning α}
    {question : ScanQuestion}
    {result : question.Reply → Except ScanError α}
    (asked : step.started checkpoint =
      .ask question fun reply => .done (result reply, checkpoint))
    (answered : ∀ reply, kind ⟨question, reply⟩ → result reply = .ok value)
    (silent : ∀ reply, writtenRecord? ⟨question, reply⟩ = none) :
    step.Yields kind checkpoint (value, checkpoint) [] := by
  intro conversation outcome ended all
  rw [asked] at ended
  rcases Program.reaches_ask_done_iff.mp ended with ⟨_, waiting⟩ | ⟨reply, rfl, finished⟩
  · cases waiting
  · injection finished with finished
    rw [answered reply (all _ List.mem_cons_self)] at finished
    exact ⟨finished, by simp [written, silent]⟩

theorem yields_get :
    (get : Scanning Checkpoint).Yields kind checkpoint (checkpoint, checkpoint) [] :=
  yields_of_started_done rfl

/-- Actions that have a record for everything that they are to write bring these records. -/
theorem yields_performAll
    (accepted : ∀ exchange, kind exchange → Accepted exchange)
    {actions : List ScanAction}
    (reported : reportsOf actions = records.map some) :
    (performAll actions).Yields kind checkpoint ((), checkpointAfter checkpoint actions)
      records := by
  intro conversation result ended all
  have made : none ∉ reportsOf actions := by simp [reported]
  obtain rfl := performAll_finishes made ended fun exchange present =>
    accepted exchange (all exchange present)
  obtain ⟨finished, left, rfl, recorded, _, complete⟩ := performAll_reaches ended
  obtain ⟨rfl, _⟩ := complete _ rfl
  rw [List.append_nil] at reported
  exact ⟨rfl, (List.map_inj_right fun _ _ => Option.some.inj).mp (recorded.trans reported)⟩

end Scanning

/-- A program without a checkpoint goes through a scan step by step. -/
theorem ScanProgram.started_scanning_bind
    (step : ScanProgram α)
    (next : α → ScanProgram β)
    (checkpoint : Checkpoint) :
    Scanning.started (step >>= next).scanning checkpoint =
      Scanning.started (step.scanning >>= fun value => (next value).scanning) checkpoint := by
  rw [Scanning.started_bind]
  change (Program.andThen (Program.andThen _ _) _) = (Program.andThen (Program.andThen _ _) _)
  rw [Program.andThen_assoc, Program.andThen_assoc]
  congr 1
  funext result
  cases result <;> rfl

theorem ScanProgram.started_askOr
    {question : ScanQuestion}
    (asResult : question.Reply → Except ScanError α)
    (checkpoint : Checkpoint) :
    Scanning.started (askOr question asResult).scanning checkpoint =
      .ask question fun reply => .done (asResult reply, checkpoint) := by
  change Program.ask _ _ = _
  congr 1
  funext reply
  change Program.andThen (ExceptT.run (ofExcept (asResult reply) : ScanProgram α)) _ = _
  cases asResult reply <;> rfl

end Scan
end Valset
