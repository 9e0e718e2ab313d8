import Valset.Proofs.Manager.Operation
import Valset.Proofs.Scan.CatchingUp

/-!
# Paging

The events of a range of blocks are asked for page by page, one question for each window of the
range. Nobody sees the pages: a node that answers truthfully brings what it would bring for one
question about the whole range, and the first question that is refused is the last one.
-/

namespace Valset
namespace Scan

/-- The question for the page of a window. -/
def pageQuestion (addresses : List Address) (window : Nat × Nat) : NodeQuestion :=
  .logs (logsOf addresses window)

/-- The questions for the pages of a range of blocks. -/
def pageQuestions (addresses : List Address) (first last : Nat) : List NodeQuestion :=
  (blockWindows first last pageSize).map (pageQuestion addresses)

/-- A page that was asked for and what the node answered. -/
def pageExchange
    (addresses : List Address)
    (window : Nat × Nat)
    (reply : Except NodeError (List Log)) : Exchange NodeDialogue :=
  ⟨pageQuestion addresses window, reply⟩

/-- The conversation in which a node gives pages, each for its window. -/
def turning
    (addresses : List Address)
    (pages : List ((Nat × Nat) × List Log)) : NodeConversation :=
  pages.map fun page => pageExchange addresses page.1 (.ok page.2)

/-- The events on pages. -/
def eventsOn (pages : List ((Nat × Nat) × List Log)) : List (List LiveEvent) :=
  pages.map fun page => page.2.filterMap historicEvent?

/-- What was asked in a conversation. -/
def questionsOf (conversation : NodeConversation) : List NodeQuestion :=
  conversation.map fun exchange => exchange.question

/-- Why a node refused a question, if it did. -/
def refusal? (exchange : Exchange NodeDialogue) : Option NodeError :=
  match exchange.answer with
  | .error cause => some cause
  | .ok _ => none

section Fetching

variable
  {addresses : List Address}
  {windows : List (Nat × Nat)}
  {conversation : NodeConversation}

/-- A window is one query for logs. -/
theorem run_fetchWindow (addresses : List Address) (window : Nat × Nat) :
    (fetchWindow addresses window).run = .ask (pageQuestion addresses window) fun
      | .error cause => .done (.error (.logQuery cause))
      | .ok (logs : List Log) => .done (.ok (logs.filterMap historicEvent?)) := by
  change Program.ask _ _ = Program.ask _ _
  congr

/-- What is left of the questions for windows, given the events of earlier ones in reverse. -/
def fetchFrom
    (addresses : List Address)
    (windows : List (Nat × Nat))
    (earlier : List (List LiveEvent)) :
    Program NodeDialogue (Except ManagerError (List (List LiveEvent))) :=
  (List.mapM.loop (fetchWindow addresses) windows earlier).run

theorem fetchFrom_nil (addresses : List Address) (earlier : List (List LiveEvent)) :
    fetchFrom addresses [] earlier = .done (.ok earlier.reverse) :=
  rfl

/-- Windows are looked at one after the other, until a query fails. -/
theorem fetchFrom_cons
    (addresses : List Address)
    (window : Nat × Nat)
    (windows : List (Nat × Nat))
    (earlier : List (List LiveEvent)) :
    fetchFrom addresses (window :: windows) earlier =
      .ask (pageQuestion addresses window) fun
        | .error cause => .done (.error (.logQuery cause))
        | .ok (logs : List Log) =>
          fetchFrom addresses windows (logs.filterMap historicEvent? :: earlier) := by
  rw [fetchFrom, List.mapM.loop, Operation.run_bind, run_fetchWindow]
  change Program.ask _ _ = Program.ask _ _
  congr 1
  funext reply
  cases reply <;> rfl

/-- After a conversation about windows, either pages were given for the first of them and the others
are still to be asked for, or one page was refused behind those that were given, and that is the
end. -/
theorem reaches_fetchFrom
    {earlier : List (List LiveEvent)}
    {rest : Program NodeDialogue (Except ManagerError (List (List LiveEvent)))}
    (reached : (fetchFrom addresses windows earlier).Reaches conversation rest) :
    (∃ pages left, windows = pages.map (·.1) ++ left ∧
        conversation = turning addresses pages ∧
        rest = fetchFrom addresses left ((eventsOn pages).reverse ++ earlier)) ∨
      ∃ pages window left cause, windows = pages.map (·.1) ++ window :: left ∧
        conversation = turning addresses pages ++ [pageExchange addresses window (.error cause)] ∧
        rest = .done (.error (.logQuery cause)) := by
  induction windows generalizing conversation earlier with
  | nil =>
      rw [fetchFrom_nil, Program.reaches_done_iff] at reached
      obtain ⟨rfl, rfl⟩ := reached
      exact .inl ⟨[], [], rfl, rfl, rfl⟩
  | cons window windows inductionHypothesis =>
      rw [fetchFrom_cons] at reached
      rcases Program.reaches_ask_iff.mp reached with ⟨rfl, rfl⟩ | ⟨reply, later, rfl, goesOn⟩
      · refine .inl ⟨[], window :: windows, rfl, rfl, ?_⟩
        exact (fetchFrom_cons addresses window windows earlier).symm
      · rcases reply with cause | (logs : List Log)
        · obtain ⟨rfl, rfl⟩ := Program.reaches_done_iff.mp goesOn
          exact .inr ⟨[], window, windows, cause, rfl, rfl, rfl⟩
        · rcases inductionHypothesis goesOn with
            ⟨pages, left, rfl, rfl, rfl⟩ | ⟨pages, refused, left, cause, rfl, rfl, rfl⟩
          · refine .inl ⟨(window, logs) :: pages, left, rfl, rfl, ?_⟩
            simp [eventsOn]
          · exact .inr ⟨(window, logs) :: pages, refused, left, cause, rfl, rfl, rfl⟩

theorem questionsOf_append (first second : NodeConversation) :
    questionsOf (first ++ second) = questionsOf first ++ questionsOf second :=
  List.map_append

theorem questionsOf_turning
    (addresses : List Address)
    (pages : List ((Nat × Nat) × List Log)) :
    questionsOf (turning addresses pages) =
      (pages.map (·.1)).map (pageQuestion addresses) := by
  rw [List.map_map]
  exact List.map_map

/-- A page that is given is not refused. -/
theorem refusal?_of_mem_turning
    {pages : List ((Nat × Nat) × List Log)}
    {exchange : Exchange NodeDialogue}
    (present : exchange ∈ turning addresses pages) :
    refusal? exchange = none := by
  obtain ⟨page, -, rfl⟩ := List.mem_map.mp present
  rfl

/-- Only the last question about windows is refused. -/
theorem refused_last
    {earlier : List (List LiveEvent)}
    {rest : Program NodeDialogue (Except ManagerError (List (List LiveEvent)))}
    (reached : (fetchFrom addresses windows earlier).Reaches conversation rest)
    {before after : NodeConversation}
    {exchange : Exchange NodeDialogue}
    (split : conversation = before ++ exchange :: after)
    {cause : NodeError}
    (refused : refusal? exchange = some cause) :
    after = [] ∧ rest = .done (.error (.logQuery cause)) := by
  rcases reaches_fetchFrom reached with
    ⟨pages, left, -, talked, -⟩ | ⟨pages, window, left, last, -, talked, ended⟩
  · have given : exchange ∈ turning addresses pages := by simp [← talked, split]
    simp [refusal?_of_mem_turning given] at refused
  · rw [talked] at split
    rcases List.eq_nil_or_concat' after with rfl | ⟨front, final, rfl⟩
    · obtain ⟨-, same⟩ := List.append_inj' split rfl
      obtain rfl := List.singleton_inj.mp same
      obtain rfl : last = cause := Option.some.inj refused
      exact ⟨rfl, ended⟩
    · rw [← List.cons_append, ← List.append_assoc] at split
      obtain ⟨front_eq, -⟩ := List.append_inj' split rfl
      have given : exchange ∈ turning addresses pages := by simp [front_eq]
      simp [refusal?_of_mem_turning given] at refused

end Fetching

/-- Answers to questions about logs that are those of a chain. -/
def TruthfulLogs (chain : List Log) : Exchange NodeDialogue → Prop
  | ⟨.logs filter, reply⟩ => reply = .ok (chain.filter filter.selects)
  | _ => True

/-- What a truthful node answers to one question about a whole range. -/
theorem filter_selects_logsOf_range
    {chain : List Log}
    {addresses : List Address}
    (someAddress : addresses ≠ [])
    {first last : UInt64} :
    chain.filter (logsOf addresses (first.toNat, last.toNat)).selects =
      logsBetween chain addresses first.toNat last.toNat := by
  refine List.filter_congr fun log _ => ?_
  cases addresses with
  | nil => exact absurd rfl someAddress
  | cons address addresses =>
      simp [LogFilter.selects, logsOf, UInt64.le_iff_toNat_le]

/-- Truthful answers to the questions for windows bring the logs of the windows. -/
theorem eventsOn_of_truthful
    {chain : List Log}
    {addresses : List Address}
    (someAddress : addresses ≠ [])
    {last : Nat}
    {pages : List ((Nat × Nat) × List Log)}
    (onePage : ∀ window ∈ pages.map (·.1), OnePage last window)
    (truthful : ∀ exchange ∈ turning addresses pages, TruthfulLogs chain exchange) :
    (eventsOn pages).flatten =
      ((pages.map (·.1)).flatMap fun window =>
        logsBetween chain addresses window.1 window.2).filterMap historicEvent? := by
  induction pages with
  | nil => rfl
  | cons page pages inductionHypothesis =>
      rw [List.map_cons, List.forall_mem_cons] at onePage
      have given : Except.ok page.2 =
          (.ok (chain.filter (logsOf addresses page.1).selects) : Except NodeError (List Log)) :=
        truthful _ List.mem_cons_self
      rw [filter_selects_logsOf chain someAddress onePage.1] at given
      have others := inductionHypothesis onePage.2 fun exchange present =>
        truthful exchange (List.mem_cons_of_mem _ present)
      rw [List.map_cons, List.flatMap_cons, List.filterMap_append, ← others,
        ← Except.ok.inj given]
      rfl

/-- Events are fetched window by window and put in a row. -/
theorem run_fetchEvents (addresses : List Address) (first last : Nat) :
    (fetchEvents addresses first last).run =
      (fetchFrom addresses (blockWindows first last pageSize) []).andThen fun result =>
        .done (result.map List.flatten) := by
  rw [fetchEvents, Operation.run_bind]
  congr 1
  funext result
  cases result <;> rfl

section Paging

variable
  {chain : List Log}
  {addresses : List Address}
  {conversation : NodeConversation}

/-- What a truthful node brings for the pages of a range. -/
theorem fetchEvents_of_truthful
    (ordered : InBlockOrder chain)
    (someAddress : addresses ≠ [])
    {first last : UInt64}
    (room : last.toNat + pageSize < UInt64.size)
    {result : Except ManagerError (List LiveEvent)}
    (reached : (fetchEvents addresses first.toNat last.toNat).run.Reaches conversation
      (.done result))
    (truthful : ∀ exchange ∈ conversation, TruthfulLogs chain exchange) :
    questionsOf conversation = pageQuestions addresses first.toNat last.toNat ∧
      result = .ok ((logsBetween chain addresses first.toNat last.toNat).filterMap
        historicEvent?) := by
  rw [run_fetchEvents, Program.reaches_andThen_done_iff] at reached
  obtain ⟨outcome, talked, silence, rfl, reachedOutcome, finished⟩ := reached
  obtain ⟨rfl, ended⟩ := Program.reaches_done_iff.mp finished
  obtain rfl := Program.done.inj ended
  rw [List.append_nil] at truthful ⊢
  rcases reaches_fetchFrom reachedOutcome with
    ⟨pages, left, windows_eq, rfl, finished⟩ | ⟨pages, window, left, cause, -, rfl, -⟩
  · cases left with
    | cons window left =>
        rw [fetchFrom_cons] at finished
        cases finished
    | nil =>
        rw [fetchFrom_nil] at finished
        obtain rfl := Program.done.inj finished
        rw [List.append_nil] at windows_eq
        have onePage : ∀ window ∈ pages.map (·.1), OnePage last.toNat window := by
          rw [← windows_eq]
          exact fun window present => onePage_of_mem_blockWindows room present
        refine ⟨by rw [questionsOf_turning, pageQuestions, windows_eq], ?_⟩
        rw [← flatMap_blockWindows ordered addresses pageSize_pos room, windows_eq,
          ← eventsOn_of_truthful someAddress onePage truthful]
        simp [Except.map]
  · have refused := truthful (pageExchange addresses window (.error cause)) (by simp)
    cases refused

theorem TruthfulLogs.answerable (chain : List Log) (question : NodeQuestion) :
    ∃ reply, TruthfulLogs chain ⟨question, reply⟩ := by
  cases question with
  | logs filter => exact ⟨_, rfl⟩
  | _ => exact ⟨.error (.transport ""), trivial⟩

/-- The questions of any conversation are the first ones of those for the pages, and none follows a
refused one. -/
theorem questions_prefix
    {first last : Nat}
    {rest : Program NodeDialogue (Except ManagerError (List LiveEvent))}
    (reached : (fetchEvents addresses first last).run.Reaches conversation rest) :
    questionsOf conversation <+: pageQuestions addresses first last ∧
      ∀ before exchange after, conversation = before ++ exchange :: after →
        ∀ cause, refusal? exchange = some cause →
          after = [] ∧ rest = .done (.error (.logQuery cause)) := by
  rw [run_fetchEvents, Program.reaches_andThen_done_comp_iff] at reached
  obtain ⟨left, reachedLeft, rfl⟩ := reached
  constructor
  · rw [pageQuestions]
    rcases reaches_fetchFrom reachedLeft with
      ⟨pages, others, windows_eq, rfl, -⟩ | ⟨pages, window, others, cause, windows_eq, rfl, -⟩
    · rw [windows_eq, questionsOf_turning, List.map_append]
      exact List.prefix_append _ _
    · rw [windows_eq, questionsOf_append, questionsOf_turning, List.map_append, List.map_cons]
      exact (List.prefix_append_right_inj _).mpr (List.prefix_append [_] _)
  · intro before exchange after split cause refused
    obtain ⟨rfl, rfl⟩ := refused_last reachedLeft split refused
    exact ⟨rfl, rfl⟩

/-- What a truthful node brings for one question about a whole range. -/
theorem fetchWindow_of_truthful
    (someAddress : addresses ≠ [])
    {first last : UInt64}
    {result : Except ManagerError (List LiveEvent)}
    (reached : (fetchWindow addresses (first.toNat, last.toNat)).run.Reaches conversation
      (.done result))
    (truthful : ∀ exchange ∈ conversation, TruthfulLogs chain exchange) :
    result = .ok ((logsBetween chain addresses first.toNat last.toNat).filterMap
      historicEvent?) := by
  rw [run_fetchWindow] at reached
  rcases Program.reaches_ask_iff.mp reached with ⟨-, waiting⟩ | ⟨reply, later, rfl, ended⟩
  · cases waiting
  · obtain rfl := truthful _ List.mem_cons_self
    obtain ⟨-, finished⟩ := Program.reaches_done_iff.mp ended
    rw [Program.done.inj finished, filter_selects_logsOf_range someAddress]

/-- Paging is invisible. As long as the numbers of the blocks stay in their type, a node that
answers truthfully is asked once for each window of the range, and brings the events of the logs of
the range in the order of the chain, as it does for one question about the whole range. Whatever a
node answers, it is asked for the windows in their order, and the first question that it refuses
ends the conversation with the error. -/
theorem paging_invisible
    (ordered : InBlockOrder chain)
    (someAddress : addresses ≠ [])
    {first last : UInt64}
    (room : last.toNat + pageSize < UInt64.size) :
    (∀ window ∈ blockWindows first.toNat last.toNat pageSize,
        window.1 + pageSize < UInt64.size) ∧
      (∃ conversation result,
        (fetchEvents addresses first.toNat last.toNat).run.Reaches conversation (.done result) ∧
          ∀ exchange ∈ conversation, TruthfulLogs chain exchange) ∧
      (∀ conversation result,
        (fetchEvents addresses first.toNat last.toNat).run.Reaches conversation (.done result) →
        (∀ exchange ∈ conversation, TruthfulLogs chain exchange) →
          questionsOf conversation = pageQuestions addresses first.toNat last.toNat ∧
            result = .ok ((logsBetween chain addresses first.toNat last.toNat).filterMap
              historicEvent?)) ∧
      (∀ conversation result,
        (fetchWindow addresses (first.toNat, last.toNat)).run.Reaches conversation
          (.done result) →
        (∀ exchange ∈ conversation, TruthfulLogs chain exchange) →
          result = .ok ((logsBetween chain addresses first.toNat last.toNat).filterMap
            historicEvent?)) ∧
      ∀ conversation rest,
        (fetchEvents addresses first.toNat last.toNat).run.Reaches conversation rest →
          questionsOf conversation <+: pageQuestions addresses first.toNat last.toNat ∧
            ∀ before exchange after, conversation = before ++ exchange :: after →
              ∀ cause, refusal? exchange = some cause →
                after = [] ∧ rest = .done (.error (.logQuery cause)) := by
  refine ⟨?_, Program.exists_reaches_done (TruthfulLogs.answerable chain) _, ?_, ?_, ?_⟩
  · intro window present
    obtain ⟨inOrder, below, -, -⟩ := onePage_of_mem_blockWindows room present
    omega
  · intro conversation result reached truthful
    exact fetchEvents_of_truthful ordered someAddress room reached truthful
  · intro conversation result reached truthful
    exact fetchWindow_of_truthful someAddress reached truthful
  · intro conversation rest reached
    exact questions_prefix reached

/-- Two logs at the border of two pages, the second one with a copy that was taken back. -/
def borderChain : List Log :=
  [.sample 49999 0 false, .sample 50000 0 false, .sample 50000 1 true]

theorem historicEvent?_sample (block : UInt64) (index : Nat) (removed : Bool) :
    historicEvent? (.sample block index removed) =
      if removed then none else some (.sample block index removed) := by
  rw [historicEvent?, LiveEvent.ofLog?_sample]
  cases removed <;> rfl

/-- A range of two windows is asked for in two queries, and the logs on both sides of their border
are found. -/
theorem paging_invisible_border :
    ∃ conversation result,
      (fetchEvents [.ofNat 1] (0 : UInt64).toNat (60000 : UInt64).toNat).run.Reaches conversation
          (.done result) ∧
        questionsOf conversation =
          [pageQuestion [.ofNat 1] (0, 49999), pageQuestion [.ofNat 1] (50000, 60000)] ∧
        result = .ok [.sample 49999 0 false, .sample 50000 0 false] := by
  have ordered : InBlockOrder borderChain := by decide
  obtain ⟨-, ⟨conversation, result, reached, truthful⟩, paged, -, -⟩ :=
    @paging_invisible _ _ ordered (List.cons_ne_nil (FixedBytes.ofNat 1) []) 0 60000 (by decide)
  obtain ⟨asked, brought⟩ := paged conversation result reached truthful
  refine ⟨conversation, result, reached, ?_, ?_⟩
  · have windows : blockWindows (0 : UInt64).toNat (60000 : UInt64).toNat pageSize =
        [(0, 49999), (50000, 60000)] := by
      simp [blockWindows, blockAfter, pageSize, UInt64.size]
    rw [asked, pageQuestions, windows]
    rfl
  · rw [brought]
    simp [logsBetween, borderChain, historicEvent?_sample]

end Paging

end Scan
end Valset
