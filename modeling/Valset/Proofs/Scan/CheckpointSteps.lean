import Valset.Proofs.Scan.BlockNumber
import Valset.Proofs.Scan.CheckpointFile
import Valset.Proofs.Scan.Transcript

/-!
# Checkpoints in step with their files

A checkpoint is loaded and then moves on block by block, where any attempt to store a block may
fail. After every attempt the file says what is in memory: the highest block that was loaded or
declared complete. What the file system does between two attempts is not considered.
-/

namespace Valset.Scan

namespace Checkpoint

open FileTree

/-! ## Advancing -/

/-- What follows an attempt to store a block. -/
def afterStore
    (checkpoint : Checkpoint)
    (block : Nat) :
    Except FileError Unit → Program FileDialogue (Except FileError Checkpoint)
  | .ok () => .done (.ok { checkpoint with block := some block })
  | .error cause => .done (.error cause)

/-- A block that is not complete yet is stored, and then it is remembered. -/
theorem run_advance
    (checkpoint : Checkpoint)
    (block : Nat) :
    (advance store checkpoint block).run =
      if checkpoint.covers block then .done (.ok checkpoint)
      else (checkpoint.store block).run.andThen (checkpoint.afterStore block) := by
  rw [advance]
  split
  · rfl
  · change Program.andThen _ _ = _
    congr 1
    funext reply
    cases reply <;> rfl

/-- What an attempt to declare a block complete has come to in a tree of files. -/
inductive Attempted
    (checkpoint : Checkpoint)
    (block : Nat)
    (before after : FileTree) : Except FileError Checkpoint → Prop
  | covered
      (known : checkpoint.covers block)
      (unchanged : after = before) :
      Attempted checkpoint block before after (.ok checkpoint)
  | stored
      (new : checkpoint.covers block = false)
      (held : after.read checkpoint.path =
        .ok (Bytes.ofText (StoredBlock.toJson ⟨checkpoint.chain, block⟩).indented)) :
      Attempted checkpoint block before after (.ok { checkpoint with block := some block })
  | refused
      (cause : FileError)
      (spared : ∀ location, Spared checkpoint.path before after location) :
      Attempted checkpoint block before after (.error cause)

/-- An attempt finds the block complete, stores it, or spares all files. -/
theorem attempted_of_leads
    {checkpoint : Checkpoint}
    {block : Nat}
    {before after : FileTree}
    {result : Except FileError Checkpoint}
    (sound : before.Sound)
    (noDevice : before.NoStagedDevice)
    (led : (advance store checkpoint block).run.Leads moves before (.done result) after) :
    before.Continues after ∧ after.NoStagedDevice ∧
      Attempted checkpoint block before after result := by
  rw [run_advance] at led
  split at led
  · next known =>
    cases led
    exact ⟨sound.continues, noDevice, .covered known rfl⟩
  · next new =>
    have kept : ((checkpoint.store block).run.andThen (checkpoint.afterStore block)).Keeps moves
        (Undivided checkpoint.path (StoredBlock.toJson ⟨checkpoint.chain, block⟩).indented before)
        (fun result tree => Attempted checkpoint block before tree result) before := by
      refine (keeps_writeText sound noDevice checkpoint.path _).andThen ?_
      rintro (cause | _) tree whole finished
      · exact ⟨whole, .refused cause finished⟩
      · exact ⟨whole, .stored (by simpa using new) finished⟩
    obtain ⟨whole, attempted⟩ := kept.of_leads led
    exact ⟨whole.continues, whole.noDevice, attempted⟩

/-! ## A number of attempts -/

/-- A checkpoint in memory and the files around it after a number of attempts to declare blocks
complete, with the blocks for which there was no error. After an error the checkpoint is what it
was. -/
inductive Advanced (first : Checkpoint) (before : FileTree) :
    List Nat → Checkpoint → FileTree → Prop
  | loaded : Advanced first before [] first before
  | recorded
      {blocks : List Nat}
      {checkpoint later : Checkpoint}
      {tree after : FileTree}
      {block : Nat}
      (earlier : Advanced first before blocks checkpoint tree)
      (blockFits : block < 2 ^ 64)
      (led : (advance store checkpoint block).run.Leads moves tree (.done (.ok later)) after) :
      Advanced first before (blocks ++ [block]) later after
  | refused
      {blocks : List Nat}
      {checkpoint : Checkpoint}
      {tree after : FileTree}
      {block : Nat}
      {cause : FileError}
      (earlier : Advanced first before blocks checkpoint tree)
      (led : (advance store checkpoint block).run.Leads moves tree (.done (.error cause)) after) :
      Advanced first before blocks checkpoint after

/-- A checkpoint in memory is in step with its file. It has the highest of the blocks that it was
loaded with and that were recorded; it is what the file says, which counts for its own chain only;
an attempt that fails leaves what the file says; and scanning goes on with the lowest block behind
it, unless it is the last one of all. -/
structure InStep
    (first : Checkpoint)
    (blocks : List Nat)
    (checkpoint : Checkpoint)
    (tree : FileTree) : Prop where
  block_eq : checkpoint.block = (first.block.toList ++ blocks).max?
  fresh : tree.perform (load first.path first.chain).run = (.ok checkpoint, tree)
  foreign : blocks ≠ [] → ∀ other, other ≠ first.chain →
    tree.perform (load first.path other).run = (.ok (empty first.path other), tree)
  refused : ∀ block cause after,
    (advance store checkpoint block).run.Leads moves tree (.done (.error cause)) after →
      after.read first.path = tree.read first.path
  resume : (∀ block ∈ checkpoint.block, block + 1 < UInt64.size) →
    ∀ start, IsLeast {block | start ≤ block ∧ checkpoint.covers block = false}
      (checkpoint.resumeFrom start)

/-- What is kept from one attempt to the next. -/
structure Held
    (first : Checkpoint)
    (blocks : List Nat)
    (checkpoint : Checkpoint)
    (tree : FileTree) : Prop extends FoundIn tree first.path first.chain checkpoint where
  block_eq : checkpoint.block = (first.block.toList ++ blocks).max?

theorem max?_concat
    (blocks : List Nat)
    (block : Nat) :
    (blocks ++ [block]).max? = some ((blocks.max?.map (max · block)).getD block) := by
  cases blocks with
  | nil => rfl
  | cons first blocks =>
      rw [List.cons_append, List.max?_cons', List.foldl_append, List.max?_cons']
      rfl

/-- The block of a checkpoint that has completed another block is the higher one of the two. -/
theorem block_completed
    (checkpoint : Checkpoint)
    (block : Nat) :
    (checkpoint.completed block).block =
      some ((checkpoint.block.map (max · block)).getD block) := by
  rcases checkpoint with ⟨path, chain, _ | current⟩
  · simp [completed, covers]
  · by_cases covered : block ≤ current
    · simp [completed, covers, covered]
    · have behind : current ≤ block := by omega
      simp [completed, covers, covered, behind]

section Steps

variable
  {first checkpoint later : Checkpoint}
  {before tree after : FileTree}
  {blocks : List Nat}
  {block : Nat}
  {cause : FileError}

/-- When an attempt has failed, the file is read as before. -/
theorem Held.read_eq_of_refused
    (held : Held first blocks checkpoint tree)
    (led : (advance store checkpoint block).run.Leads moves tree (.done (.error cause)) after) :
    after.read first.path = tree.read first.path := by
  obtain ⟨continues, -, attempted⟩ := attempted_of_leads held.sound held.noDevice led
  cases attempted with
  | refused cause spared =>
      rw [held.path_eq] at spared
      exact read_eq_of_spared held.sound held.rooted held.settles continues spared

/-- A block that is refused leaves what is held as it was. -/
theorem Held.refused
    (held : Held first blocks checkpoint tree)
    (led : (advance store checkpoint block).run.Leads moves tree (.done (.error cause)) after) :
    Held first blocks checkpoint after := by
  obtain ⟨continues, noDevice, -⟩ := attempted_of_leads held.sound held.noDevice led
  have rooted := led.invariant (fun _ _ _ _ moved rooted => rooted.of_moves moved) held.rooted
  exact ⟨held.of_read_eq continues noDevice rooted (held.read_eq_of_refused led), held.block_eq⟩

/-- A block that is recorded is added to what is held. -/
theorem Held.recorded
    (held : Held first blocks checkpoint tree)
    (chainFits : first.chain < 2 ^ 64)
    (blockFits : block < 2 ^ 64)
    (led : (advance store checkpoint block).run.Leads moves tree (.done (.ok later)) after) :
    Held first (blocks ++ [block]) later after := by
  obtain ⟨continues, noDevice, attempted⟩ := attempted_of_leads held.sound held.noDevice led
  have rooted := led.invariant (fun _ _ _ _ moved rooted => rooted.of_moves moved) held.rooted
  have completed_eq : later = checkpoint.completed block := by
    cases attempted with
    | covered known unchanged => exact (if_pos known).symm
    | stored new held => exact (if_neg (by simp [new])).symm
  have block_eq : later.block = (first.block.toList ++ (blocks ++ [block])).max? := by
    rw [completed_eq, block_completed, held.block_eq, ← List.append_assoc, max?_concat]
  cases attempted with
  | covered known unchanged =>
      rw [unchanged]
      exact ⟨held.toFoundIn, block_eq⟩
  | stored new read =>
      rw [held.path_eq, held.chain_eq] at read
      exact ⟨held.of_stored chainFits blockFits continues noDevice rooted read, block_eq⟩

/-- After each attempt the checkpoint is held by its file. -/
theorem Advanced.held
    (advanced : Advanced first before blocks checkpoint tree)
    (chainFits : first.chain < 2 ^ 64)
    (start : Held first [] first before) :
    Held first blocks checkpoint tree := by
  induction advanced with
  | loaded => exact start
  | recorded earlier blockFits led inductionHypothesis =>
      exact inductionHypothesis.recorded chainFits blockFits led
  | refused earlier led inductionHypothesis => exact inductionHypothesis.refused led

/-- What is held is in step. -/
theorem Held.inStep
    (held : Held first blocks checkpoint tree) :
    InStep first blocks checkpoint tree where
  block_eq := held.block_eq
  fresh := held.loaded
  foreign recorded other different := by
    refine perform_load_of_other different held.loaded ?_
    rw [held.block_eq, ne_eq, List.max?_eq_none_iff, List.append_eq_nil_iff]
    exact fun both => recorded both.2
  refused _ _ _ led := held.read_eq_of_refused led
  resume := isLeast_resumeFrom

end Steps

/-- A checkpoint that has been loaded stays in step with its file, whatever blocks are declared
complete and whatever fails, if the directories that may be made on the way to the file make no
difference to where its path leads. -/
theorem stays_in_step
    {path : String}
    {chain : Nat}
    {first checkpoint : Checkpoint}
    {before tree : FileTree}
    {blocks : List Nat}
    (sound : before.Sound)
    (noDevice : before.NoStagedDevice)
    (rooted : before.Rooted)
    (settles : before.Settles path)
    (chainFits : chain < 2 ^ 64)
    (loaded : before.perform (load path chain).run = (.ok first, before))
    (advanced : Advanced first before blocks checkpoint tree) :
    InStep first blocks checkpoint tree := by
  obtain ⟨stored, -, same⟩ := perform_load_eq_ok_iff.mp loaded
  obtain rfl : first.path = path := same ▸ path_ofStored path chain stored
  obtain rfl : first.chain = chain := same ▸ chain_ofStored first.path chain stored
  refine (advanced.held chainFits ?_).inStep
  exact
    { sound, noDevice, rooted, settles, loaded
      block_eq := by cases first.block <;> rfl }

/-! ## Attempts that fail and attempts that succeed -/

section Attempts

variable
  {checkpoint later : Checkpoint}
  {block : Nat}
  {tree : FileTree}

/-- In any tree storing a block may fail at once. -/
theorem exists_leads_refused
    (new : checkpoint.covers block = false) :
    ∃ cause, (advance store checkpoint block).run.Leads moves tree (.done (.error cause)) tree := by
  rw [run_advance, new, if_neg Bool.false_ne_true, store, Files.writeJson]
  rcases Files.run_writeText checkpoint.path
      (StoredBlock.toJson ⟨checkpoint.chain, block⟩).indented with
    ⟨-, direct⟩ | ⟨parent, -, throughParent⟩
  · rw [direct]
    exact ⟨_, .turn (.error .noSpace) (.inl rfl) (.start _ _)⟩
  · rw [throughParent]
    exact ⟨_, .turn (.error .noSpace) ⟨[], List.nil_prefix, rfl⟩ (.start _ _)⟩

/-- Storing a block may succeed if nothing has to fail. -/
theorem exists_leads_recorded
    (recorded : (tree.perform (advance store checkpoint block).run).1.toOption = some later) :
    ∃ after, (advance store checkpoint block).run.Leads moves tree (.done (.ok later)) after := by
  have led := leads_perform (advance store checkpoint block).run tree
  cases result : (tree.perform (advance store checkpoint block).run).1 with
  | error cause =>
      rw [result] at recorded
      cases recorded
  | ok found =>
      rw [result] at recorded led
      obtain rfl := Option.some.inj recorded
      exact ⟨_, led⟩

/-- An advance that fails leads to its failure. -/
theorem exists_leads_failed
    (failed : (tree.perform (advance store checkpoint block).run).1.toOption = none) :
    ∃ cause, (advance store checkpoint block).run.Leads moves tree (.done (.error cause))
      (tree.perform (advance store checkpoint block).run).2 := by
  have led := leads_perform (advance store checkpoint block).run tree
  cases result : (tree.perform (advance store checkpoint block).run).1 with
  | error cause =>
      rw [result] at led
      exact ⟨cause, led⟩
  | ok found =>
      rw [result] at failed
      cases failed

end Attempts

/-- In a tree without a checkpoint block 9 is not stored, block 7 is, and block 6 is known. -/
theorem sample_stays_in_step :
    ∃ after,
      Advanced (empty "state/checkpoint.json" 1) FileTree.empty [7, 6]
        ⟨"state/checkpoint.json", 1, some 7⟩ after ∧
      InStep (empty "state/checkpoint.json" 1) [7, 6] ⟨"state/checkpoint.json", 1, some 7⟩
        after := by
  have loaded : FileTree.empty.perform (load "state/checkpoint.json" 1).run =
      (.ok (empty "state/checkpoint.json" 1), FileTree.empty) := by
    have read : FileTree.empty.read "state/checkpoint.json" = .error .notFound := by decide +kernel
    exact perform_load_eq_ok_iff.mpr ⟨none, by rw [read]; rfl, rfl⟩
  obtain ⟨cause, failed⟩ := @exists_leads_refused (empty "state/checkpoint.json" 1) 9
    FileTree.empty rfl
  obtain ⟨after, recorded⟩ := @exists_leads_recorded (empty "state/checkpoint.json" 1)
    ⟨"state/checkpoint.json", 1, some 7⟩ 7 FileTree.empty (by decide +kernel)
  have advanced := ((Advanced.loaded.refused failed).recorded (by decide) recorded).recorded
    (show 6 < 2 ^ 64 by decide) (.start _ _)
  exact ⟨after, advanced, stays_in_step sound_empty noStagedDevice_empty rooted_empty
    (.inl (by decide)) (by decide) loaded advanced⟩

/-! ## Paths that lead elsewhere after a failure -/

/-- Whatever the files are, the checkpoint at a path stays in step with its file. -/
def AlwaysInStep (path : String) : Prop :=
  ∀ (chain : Nat) (first checkpoint : Checkpoint) (before tree : FileTree) (blocks : List Nat),
    before.Sound → before.NoStagedDevice → before.Rooted → chain < 2 ^ 64 →
      before.perform (load path chain).run = (.ok first, before) →
        Advanced first before blocks checkpoint tree → InStep first blocks checkpoint tree

/-- A checkpoint that stays in step and has no file is loaded again as it was, after an attempt that
failed. -/
theorem AlwaysInStep.fresh
    {path : String}
    (always : AlwaysInStep path)
    {tree after : FileTree}
    (sound : tree.Sound)
    (noDevice : tree.NoStagedDevice)
    (rooted : tree.Rooted)
    (absent : tree.read path = .error .notFound)
    {block : Nat}
    {cause : FileError}
    (led : (advance store (empty path 1) block).run.Leads moves tree (.done (.error cause)) after) :
    after.perform (load path 1).run = (.ok (empty path 1), after) := by
  have loaded : tree.perform (load path 1).run = (.ok (empty path 1), tree) :=
    perform_load_eq_ok_iff.mpr ⟨none, by rw [absent]; rfl, rfl⟩
  exact (always 1 _ _ tree after [] sound noDevice rooted (by decide) loaded
    (Advanced.loaded.refused led)).fresh

/-- The directory that is made before storing a block fails brings another checkpoint to light. -/
theorem not_alwaysInStep_of_up : ¬ AlwaysInStep "foo/../bar" := by
  intro always
  let files := hiddenTree (StoredBlock.toJson ⟨1, 100⟩).indented
  obtain ⟨sound, noDevice, rooted⟩ : files.Sound ∧ files.NoStagedDevice ∧ files.Rooted :=
    wellFormed_hiddenTree _
  obtain ⟨cause, led⟩ := @exists_leads_failed (empty "foo/../bar" 1) 5 files (by decide +kernel)
  have fresh := congrArg (·.1.toOption)
    (always.fresh sound noDevice rooted (by decide +kernel) led)
  revert fresh
  decide +kernel

section LongName

variable
  {name : String}

theorem names_below_foo (plain : Path.Plain name) :
    Path.names ("foo" ++ "/" ++ name) = ["foo", name] := by
  rw [Path.names_append_slash_append, Path.names_of_not_mem plain.noSlash]
  rfl

theorem parent?_below_foo (plain : Path.Plain name) :
    Path.parent? ("foo" ++ "/" ++ name) = some "foo" := by
  rw [Path.parent?, names_below_foo plain]
  simp [Path.dropHere, plain.leads]
  decide

theorem locate_below_foo
    (plain : Path.Plain name)
    {tree : FileTree}
    (found : tree.step tree.working "foo" = .ok ["work", "foo"]) :
    tree.locate ("foo" ++ "/" ++ name) = tree.step ["work", "foo"] name := by
  have clean : checkPath ("foo" ++ "/" ++ name) = .ok () := by
    simp [checkPath, plain.noNul]
  have relative : Path.isAbsolute ("foo" ++ "/" ++ name) = false := by
    simp [Path.isAbsolute]
  rw [locate_eq, clean, names_below_foo plain, start, relative]
  simp [found]
  rfl

/-- The directory that is made before storing a block fails brings to light that no file can have
the name. -/
theorem not_alwaysInStep_of_long
    (plain : Path.Plain name)
    (long : longestName < name.utf8ByteSize) :
    ¬ AlwaysInStep ("foo" ++ "/" ++ name) := by
  intro always
  have absent : FileTree.empty.read ("foo" ++ "/" ++ name) = .error .notFound := by
    refine read_eq_notFound_iff.mpr (.inl ?_)
    rw [locate_below_foo plain (by decide +kernel), step]
    rfl
  have made : moves (.makeDirectories "foo") (.ok ()) FileTree.empty
      (FileTree.empty.makeDirectories "foo").2 :=
    Prod.ext (by decide +kernel) rfl
  have led : ∃ cause, (advance store (empty ("foo" ++ "/" ++ name) 1) 5).run.Leads moves
      FileTree.empty (.done (.error cause)) (FileTree.empty.makeDirectories "foo").2 := by
    rw [run_advance, if_neg (by simp [covers, empty]), store, Files.writeJson]
    rcases Files.run_writeText ("foo" ++ "/" ++ name)
        (StoredBlock.toJson ⟨1, 5⟩).indented with ⟨unnamed, -⟩ | ⟨parent, found, throughParent⟩
    · exact absurd (unnamed "foo" (parent?_below_foo plain)) (by decide)
    · obtain rfl := Option.some.inj ((parent?_below_foo plain).symm.trans found)
      rw [empty, throughParent]
      exact ⟨_, .turn (.ok ()) made (.turn (.error .noSpace) (.inl rfl) (.start _ _))⟩
  obtain ⟨cause, led⟩ := led
  have fresh := always.fresh sound_empty noStagedDevice_empty rooted_empty absent led
  have tooLong : (FileTree.empty.makeDirectories "foo").2.read ("foo" ++ "/" ++ name) =
      .error .nameTooLong := by
    have directory : FileTree.entry? (FileTree.empty.makeDirectories "foo").2 ["work", "foo"] =
        some .directory := by
      decide +kernel
    rw [FileTree.read, locate_below_foo plain (by decide +kernel), step_eq_onward directory,
      onward]
    simp [plain.leads, plain.below, long]
    rfl
  obtain ⟨stored, understood, -⟩ := perform_load_eq_ok_iff.mp fresh
  rw [tooLong] at understood
  cases understood

end LongName

/-- A name that no directory can hold. -/
def longName : String :=
  String.ofList (List.replicate 256 'a')

/-- The directories that are made before storing a block fails can bring something to light. -/
theorem not_alwaysInStep :
    ¬ AlwaysInStep "foo/../bar" ∧ ¬ AlwaysInStep ("foo" ++ "/" ++ longName) := by
  have letters : longName.toList = List.replicate 256 'a' := String.toList_ofList
  have plain : Path.Plain longName :=
    { leads := by decide +kernel
      below := by decide +kernel
      noSlash := fun slash => absurd (List.eq_of_mem_replicate (letters ▸ slash)) (by decide)
      noNul := fun nul => absurd (List.eq_of_mem_replicate (letters ▸ nul)) (by decide) }
  have long : longestName < longName.utf8ByteSize := by decide +kernel
  exact ⟨not_alwaysInStep_of_up, not_alwaysInStep_of_long plain long⟩

end Checkpoint
end Valset.Scan
