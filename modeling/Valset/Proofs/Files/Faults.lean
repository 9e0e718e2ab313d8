import Valset.Proofs.Except
import Valset.Proofs.Files.TreePrograms
import Valset.Proofs.Moves

/-!
# Trees of files with faults

What a tree of files may do when any step may fail. A file whose writing failed may hold the front
of what was to be written, and directories that were made before a step failed stay. What a step
changes is seen at its own place only, and the place of a path stays the same.
-/

namespace Valset
namespace FileTree

/-- How a tree may answer, and what becomes of it. -/
def moves : Moves FileDialogue FileTree
  | .read path, reply, before, after =>
    after = before ∧ (reply = before.read path ∨ ∃ fault, reply = .error fault)
  | .write path content, .ok (), before, after => before.write path content = .ok after
  | .write path content, .error _, before, after =>
    after = before ∨ ∃ left, left <+: content ∧ before.write path left = .ok after
  | .move source target, .ok (), before, after => before.move source target = .ok after
  | .move _ _, .error _, before, after => after = before
  | .makeDirectories path, .ok (), before, after => before.makeDirectories path = (.ok (), after)
  | .makeDirectories path, .error _, before, after =>
    ∃ front, front <+: Path.names path ∧
      after = (before.makeAlong (before.start path) front).2
  | .isThere path, reply, before, after => after = before ∧ reply = before.isThere path

/-- What a tree answers when nothing fails but what must is one of its answers. -/
theorem moves_answer (question : FileQuestion) (tree : FileTree) :
    moves question (answer question tree).1 tree (answer question tree).2 := by
  cases question with
  | read path => exact ⟨rfl, .inl rfl⟩
  | isThere path => exact ⟨rfl, rfl⟩
  | write path content =>
      change moves (.write path content) (tree.settle (tree.write path content)).1 tree
        (tree.settle (tree.write path content)).2
      cases written : tree.write path content with
      | ok after => exact written
      | error fault => exact .inl rfl
  | move source target =>
      change moves (.move source target) (tree.settle (tree.move source target)).1 tree
        (tree.settle (tree.move source target)).2
      cases moved : tree.move source target with
      | ok after => exact moved
      | error fault => exact rfl
  | makeDirectories path =>
      change moves (.makeDirectories path) (tree.makeDirectories path).1 tree
        (tree.makeDirectories path).2
      cases made : tree.makeDirectories path with
      | mk result after =>
          cases result with
          | ok done => exact made
          | error fault =>
              rw [makeDirectories] at made
              split at made
              · obtain rfl := (Prod.mk.inj made).2
                exact ⟨[], List.nil_prefix, rfl⟩
              · split at made
                · cases made
                · exact ⟨_, List.prefix_rfl, (congrArg Prod.snd made).symm⟩

/-- A file that an answer says is not there is not there. -/
def Truthful (tree : FileTree) : (question : FileQuestion) → question.Reply → Prop
  | .read path, reply => reply = .error .notFound → tree.read path = .error .notFound
  | _, _ => True

/-- How a tree may answer if it says of no file that stands in it that it is not there. -/
def truthfulMoves : Moves FileDialogue FileTree := fun question reply before after =>
  moves question reply before after ∧ before.Truthful question reply

theorem truthfulMoves_answer (question : FileQuestion) (tree : FileTree) :
    truthfulMoves question (answer question tree).1 tree (answer question tree).2 := by
  refine ⟨moves_answer question tree, ?_⟩
  cases question with
  | read path => exact id
  | _ => trivial

/-- A tree on which nothing fails but what must leads a program to what it comes to. -/
theorem leads_perform_of_answers
    {α : Type}
    {ways : Moves FileDialogue FileTree}
    (answers : ∀ question tree,
      ways question (answer question tree).1 tree (answer question tree).2)
    (program : Program FileDialogue α)
    (tree : FileTree) :
    program.Leads ways tree (.done (tree.perform program).1) (tree.perform program).2 := by
  induction program generalizing tree with
  | done result => exact .start _ _
  | ask question next inductionHypothesis =>
      exact .turn (answer question tree).1 (answers question tree)
        (inductionHypothesis (answer question tree).1 (answer question tree).2)

theorem leads_perform
    {α : Type}
    (program : Program FileDialogue α)
    (tree : FileTree) :
    program.Leads moves tree (.done (tree.perform program).1) (tree.perform program).2 :=
  leads_perform_of_answers moves_answer program tree

/-- A tree that tells the truth may lead a program to what it comes to. -/
theorem leads_perform_truthfully
    {α : Type}
    (program : Program FileDialogue α)
    (tree : FileTree) :
    program.Leads truthfulMoves tree (.done (tree.perform program).1) (tree.perform program).2 :=
  leads_perform_of_answers truthfulMoves_answer program tree

/-- What a program keeps whatever fails holds of what it comes to on a tree. -/
theorem perform_of_keeps
    {α : Type}
    {program : Program FileDialogue α}
    {always : FileTree → Prop}
    {atEnd : α → FileTree → Prop}
    {tree : FileTree}
    (kept : program.Keeps moves always atEnd tree) :
    always (tree.perform program).2 ∧ atEnd (tree.perform program).1 (tree.perform program).2 := by
  exact kept.of_leads (leads_perform program tree)

/-- What a program keeps holds where it succeeds on a tree. -/
theorem exists_of_keeps
    {ε : Type}
    {program : Program FileDialogue (Except ε Unit)}
    {always : FileTree → Prop}
    {atEnd : Except ε Unit → FileTree → Prop}
    {tree : FileTree}
    (kept : program.Keeps moves always atEnd tree)
    (succeeds : (tree.perform program).1.toOption = some ()) :
    ∃ after, tree.perform program = (.ok (), after) ∧ always after ∧ atEnd (.ok ()) after := by
  obtain ⟨whole, finished⟩ := perform_of_keeps kept
  generalize tree.perform program = performed at whole finished succeeds
  obtain ⟨result, after⟩ := performed
  cases result with
  | ok done => exact ⟨after, rfl, whole, finished⟩
  | error cause => cases succeeds

/-! ## Directories that are made -/

/-- The places that names lead through. -/
def passed (location : Location) : List String → List Location
  | [] => []
  | name :: rest =>
    match onward location name with
    | .ok next => next :: passed next rest
    | .error _ => []

theorem mem_passed_of_prefix
    {front names : List String}
    (shorter : front <+: names)
    {location place : Location}
    (present : place ∈ passed location front) :
    place ∈ passed location names := by
  obtain ⟨back, rfl⟩ := shorter
  induction front generalizing location with
  | nil => cases present
  | cons name front inductionHypothesis =>
      rw [List.cons_append, passed]
      rw [passed] at present
      cases onwards : onward location name with
      | error fault =>
          rw [onwards] at present
          cases present
      | ok next =>
          rw [onwards] at present
          rcases List.mem_cons.mp present with rfl | later
          · exact List.mem_cons_self
          · exact List.mem_cons_of_mem _ (inductionHypothesis later)

/-- Making a directory changes nothing at any other place. -/
theorem standing?_setEntry_directory
    (tree : FileTree)
    (location : Location) :
    standing? (tree.setEntry location .directory) =
      Function.update tree.standing? location (some .directory) := by
  funext other
  rw [standing?, entry?_setEntry, Function.update_apply, Function.update_apply]
  split <;> rfl

/-- Where something stands that is no directory yet, a directory has been made on the way. -/
def Made (before after : FileTree) (places : List Location) (location : Location) : Prop :=
  before.standing? location = none ∧ after.standing? location = some .directory ∧
    location ∈ places

/-- Going along names only makes directories that are missing on the way. -/
theorem makeAlong_made
    {tree : FileTree}
    (sound : tree.Sound)
    (location : Location)
    (names : List String) :
    tree.Continues (tree.makeAlong location names).2 ∧
      ∀ place, (tree.makeAlong location names).2.standing? place = tree.standing? place ∨
        Made tree (tree.makeAlong location names).2 (passed location names) place := by
  induction names generalizing tree location with
  | nil => exact ⟨sound.continues, fun _ => .inl rfl⟩
  | cons name names inductionHypothesis =>
      rw [makeAlong, passed]
      cases stepped : tree.step location name with
      | error fault => exact ⟨sound.continues, fun _ => .inl rfl⟩
      | ok next =>
          rw [step_eq_onward (entry?_of_step_eq_ok stepped)] at stepped
          rw [stepped]
          dsimp only
          cases entry : tree.entry? next with
          | none =>
              dsimp only
              have continues := sound.continues_setEntry next
              have standing := standing?_setEntry_directory tree next
              obtain ⟨further, others⟩ := inductionHypothesis continues.sound next
              refine ⟨continues.trans further, fun place => ?_⟩
              by_cases here : place = next
              · obtain rfl := here
                have made : standing? (tree.setEntry place .directory) place = some .directory := by
                  rw [standing, Function.update_self]
                have stays := further.directories place (standing?_eq_directory_iff.mp made)
                exact .inr ⟨standing?_eq_none_iff.mpr entry, standing?_eq_directory_iff.mpr stays,
                  List.mem_cons_self⟩
              · have same : standing? (tree.setEntry next .directory) place =
                    tree.standing? place := by
                  rw [standing, Function.update_of_ne here]
                rcases others place with unchanged | ⟨missing, made, onWay⟩
                · exact .inl (unchanged.trans same)
                · exact .inr ⟨same ▸ missing, made, List.mem_cons_of_mem _ onWay⟩
          | some found =>
              cases found with
              | directory =>
                  obtain ⟨further, others⟩ := inductionHypothesis sound next
                  refine ⟨further, fun place => (others place).imp_right ?_⟩
                  rintro ⟨missing, made, onWay⟩
                  exact ⟨missing, made, List.mem_cons_of_mem _ onWay⟩
              | file number => exact ⟨sound.continues, fun _ => .inl rfl⟩
              | device isFull => exact ⟨sound.continues, fun _ => .inl rfl⟩

/-- The places on the way to the directory of a path. -/
def wayTo (tree : FileTree) (directory : String) : List Location :=
  passed (tree.start directory) (Path.names directory)

/-- Whether or not making a directory fails, only missing directories on the way to it are made. -/
theorem made_of_moves
    {before after : FileTree}
    (sound : before.Sound)
    {directory : String}
    {reply : Except FileFault Unit}
    (moved : moves (.makeDirectories directory) reply before after) :
    before.Continues after ∧
      ∀ place, after.standing? place = before.standing? place ∨
        Made before after (before.wayTo directory) place := by
  cases reply with
  | error fault =>
      obtain ⟨front, shorter, rfl⟩ := moved
      obtain ⟨continues, others⟩ := makeAlong_made sound (before.start directory) front
      refine ⟨continues, fun place => (others place).imp_right ?_⟩
      rintro ⟨missing, made, onWay⟩
      exact ⟨missing, made, mem_passed_of_prefix shorter onWay⟩
  | ok done =>
      have made : before.makeDirectories directory = (.ok (), after) := moved
      rw [makeDirectories] at made
      split at made
      · cases made
      · split at made
        · obtain rfl := (Prod.mk.inj made).2
          exact ⟨sound.continues, fun _ => .inl rfl⟩
        · rw [wayTo, ← (show _ = after from congrArg Prod.snd made)]
          exact makeAlong_made sound (before.start directory) (Path.names directory)

/-! ## The place of a path and that of its staging file -/

section Located

variable
  {tree later : FileTree}
  {path : String}
  {location staged : Location}

theorem locate_eq (tree : FileTree) (path : String) :
    tree.locate path = checkPath path >>= fun _ =>
      if path = "" then .error .notFound
      else (Path.names path).foldlM tree.step (tree.start path) := by
  rw [locate]
  congr 1
  funext done
  by_cases empty : path = ""
  · rw [if_pos empty, if_pos (by simpa using empty)]
    rfl
  · rw [if_neg empty, if_neg (by simpa using empty)]

/-- A path leads through directories to a place that its last name gives. -/
theorem locate_eq_ok_iff
    {front : List String}
    {last : String}
    (shape : Path.names path = front ++ [last]) :
    tree.locate path = .ok location ↔
      '\x00' ∉ path.toList ∧ path ≠ "" ∧
        ∃ place, tree.Leads (tree.start path) front place ∧ onward place last = .ok location := by
  rw [locate_eq, shape, List.foldlM_append]
  simp only [List.foldlM_cons, List.foldlM_nil, bind_pure]
  constructor
  · intro located
    obtain ⟨done, checked, located⟩ := bind_eq_ok_iff.mp located
    split at located
    · cases located
    · next nonempty =>
      obtain ⟨place, reached, stepped⟩ := bind_eq_ok_iff.mp located
      have directory := entry?_of_step_eq_ok stepped
      rw [step_eq_onward directory] at stepped
      exact ⟨checkPath_eq_ok_iff.mp checked, nonempty, place, ⟨reached, directory⟩, stepped⟩
  · rintro ⟨clean, nonempty, place, leads, onwards⟩
    rw [checkPath_eq_ok_iff.mpr clean, leads.reached, if_neg nonempty]
    change tree.step place last = _
    rw [step_eq_onward leads.directory, onwards]

theorem exists_names_eq_concat (path : String) :
    ∃ front last, Path.names path = front ++ [last] ∧
      Path.names (Files.staging path) = front ++ [Files.staging last] :=
  Path.exists_names_append path (by decide)

/-- The place of a path stays the same as long as the directories stay. -/
theorem locate_continues
    (located : tree.locate path = .ok location)
    (continues : tree.Continues later) :
    later.locate path = .ok location := by
  obtain ⟨front, last, shape, -⟩ := exists_names_eq_concat path
  rw [locate_eq_ok_iff shape] at located ⊢
  obtain ⟨clean, nonempty, place, leads, onwards⟩ := located
  have started : later.start path = tree.start path := by
    rw [start, start, continues.working]
  exact ⟨clean, nonempty, place, started ▸ leads.continues continues, onwards⟩

theorem onward_staging_eq_ok
    {place : Location}
    {last : String}
    (onwards : onward place (Files.staging last) = .ok location) :
    location = place ++ [Files.staging last] := by
  have leads : Path.isHere (Files.staging last) = false := by
    rw [Path.isHere, Bool.or_eq_false_iff, beq_eq_false_iff_ne, beq_eq_false_iff_ne]
    exact ⟨Files.staging_ne_of_length_lt (by decide) last,
      Files.staging_ne_of_length_lt (by decide) last⟩
  have below : (Files.staging last == "..") = false :=
    beq_eq_false_iff_ne.mpr (Files.staging_ne_of_length_lt (by decide) last)
  rw [onward, leads, below] at onwards
  simp only [Bool.false_eq_true, if_false] at onwards
  split at onwards
  · cases onwards
  · exact (Except.ok.inj onwards).symm

/-- A staging file has the name of one. -/
theorem exists_staging_of_locate (located : tree.locate (Files.staging path) = .ok staged) :
    ∃ place name, staged = place ++ [Files.staging name] := by
  obtain ⟨front, last, -, shape⟩ := exists_names_eq_concat path
  obtain ⟨-, -, place, -, onwards⟩ := (locate_eq_ok_iff shape).mp located
  exact ⟨place, last, onward_staging_eq_ok onwards⟩

theorem start_staging (tree : FileTree) (path : String) :
    tree.start (Files.staging path) = tree.start path := by
  have same : Path.isAbsolute (Files.staging path) = Path.isAbsolute path := by
    rw [Path.isAbsolute, Path.isAbsolute, Files.staging, String.toList_append]
    cases path.toList <;> rfl
  rw [start, start, same]

/-- A file and its staging file stand at different places, wherever the path of the file leads. -/
theorem ne_of_locate_staging
    (located : tree.locate path = .ok location)
    (locatedStaging : tree.locate (Files.staging path) = .ok staged) :
    location ≠ staged := by
  obtain ⟨front, last, shape, shapeStaging⟩ := exists_names_eq_concat path
  obtain ⟨-, -, place, leads, onwards⟩ := (locate_eq_ok_iff shape).mp located
  obtain ⟨-, -, placeStaging, leadsStaging, onwardsStaging⟩ :=
    (locate_eq_ok_iff shapeStaging).mp locatedStaging
  rw [start_staging] at leadsStaging
  obtain rfl : place = placeStaging := Except.ok.inj (leads.reached.symm.trans leadsStaging.reached)
  rw [onward_staging_eq_ok onwardsStaging]
  rw [onward] at onwards
  split at onwards
  · obtain rfl := Except.ok.inj onwards
    intro same
    simpa using congrArg List.length same
  · split at onwards
    · obtain rfl := Except.ok.inj onwards
      intro same
      have lengths := congrArg List.length same
      simp [above] at lengths
    · split at onwards
      · cases onwards
      · obtain rfl := Except.ok.inj onwards
        exact (Files.beside_staging place last).symm

end Located

/-! ## Writing and moving -/

section Steps

variable
  {tree later : FileTree}

/-- Writing a file changes nothing at any other place. What is written to a device is lost. -/
theorem exists_of_write
    (sound : tree.Sound)
    {path : String}
    {content : Bytes}
    (written : tree.write path content = .ok later) :
    ∃ location, tree.locate path = .ok location ∧ tree.Continues later ∧
      (∀ other, other ≠ location → later.standing? other = tree.standing? other) ∧
      (later.standing? location = some (.file content) ∨
        later = tree ∧ ∃ isFull, tree.standing? location = some (.device isFull)) := by
  rw [write] at written
  obtain ⟨location, located, written⟩ := bind_eq_ok_iff.mp written
  refine ⟨location, located, ?_⟩
  have changed (writable : tree.Writable location) : tree.Continues later ∧
      (∀ other, other ≠ location → later.standing? other = tree.standing? other) ∧
      (later.standing? location = some (.file content) ∨
        later = tree ∧ ∃ isFull, tree.standing? location = some (.device isFull)) := by
    obtain ⟨changed, writtenToo, becomes⟩ := exists_write sound located writable content
    rw [write, located] at writtenToo
    obtain rfl : changed = later := Except.ok.inj (writtenToo.symm.trans written)
    refine ⟨becomes.continues_update writable.notDirectory, fun other elsewhere => ?_, .inl ?_⟩
    · rw [becomes.standing, Function.update_of_ne elsewhere]
    · rw [becomes.standing, Function.update_self]
  cases entry : tree.entry? location with
  | none => exact changed (.inl (standing?_eq_none_iff.mpr entry))
  | some found =>
      cases found with
      | file number => exact changed (.inr ⟨_, standing?_eq_file_iff.mpr ⟨number, entry, rfl⟩⟩)
      | directory =>
          rw [entry] at written
          cases written
      | device isFull =>
          have same : later = tree := by
            rw [entry] at written
            dsimp only at written
            split at written
            · cases written
            · exact (Except.ok.inj written).symm
          subst same
          exact ⟨sound.continues, fun _ _ => rfl, .inr ⟨rfl, isFull, by rw [standing?, entry]; rfl⟩⟩

/-- A file that is moved stands at its new place, where no directory stood. -/
theorem exists_of_move
    (sound : tree.Sound)
    {source target : String}
    {old : Location}
    {content : Bytes}
    (moved : tree.move source target = .ok later)
    (located : tree.locate source = .ok old)
    (held : tree.standing? old = some (.file content)) :
    ∃ new, tree.locate target = .ok new ∧ tree.Continues later ∧
      later.standing? =
        Function.update (Function.update tree.standing? old none) new (some (.file content)) := by
  obtain ⟨number, entry, -⟩ := standing?_eq_file_iff.mp held
  have unfolded := moved
  rw [move, located] at unfolded
  obtain ⟨_, same, unfolded⟩ := bind_eq_ok_iff.mp unfolded
  obtain rfl := Except.ok.inj same
  obtain ⟨new, targetLocated, unfolded⟩ := bind_eq_ok_iff.mp unfolded
  have notDirectory : tree.standing? new ≠ some .directory := by
    intro directory
    rw [entry, standing?_eq_directory_iff.mp directory] at unfolded
    cases unfolded
  obtain ⟨changed, movedToo, becomes⟩ := exists_move sound located targetLocated held notDirectory
  obtain rfl : changed = later := Except.ok.inj (movedToo.symm.trans moved)
  refine ⟨new, targetLocated, ?_, becomes.standing⟩
  apply becomes.continues
  intro location directory
  rw [Function.update_of_ne, Function.update_of_ne, directory]
  · rintro rfl
    rw [directory] at held
    cases held
  · rintro rfl
    exact notDirectory directory

end Steps

end FileTree
end Valset
