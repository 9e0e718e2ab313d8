import Valset.Proofs.Files.Absent
import Valset.Proofs.Json.RoundTrip
import Valset.Scan.Checkpoint

/-!
# Checkpoints in files

What the file of a checkpoint says while checkpoints are loaded and stored. Loading gives what the
file says. While a block is stored the file says what it said before or the new block, and after an
error it says what it said before. The path of the file has to settle, so that the directories that
are made on the way to it bring nothing else to light. At a path that has a name which is too long
nothing is ever stored, and nothing but a checkpoint without a block is loaded.
-/

namespace Valset.Scan

/-- A stored block is readable as JSON. -/
theorem StoredBlock.readable_toJson
    {stored : StoredBlock}
    (chainFits : stored.chain < 2 ^ 64)
    (blockFits : stored.block < 2 ^ 64) :
    stored.toJson.Readable Json.maxDepth :=
  ⟨Json.readable_ofNat chainFits _, Json.readable_ofNat blockFits _, trivial⟩

/-- A stored block is read back. -/
theorem StoredBlock.ofJson?_toJson
    {stored : StoredBlock}
    (chainFits : stored.chain < 2 ^ 64)
    (blockFits : stored.block < 2 ^ 64) :
    ofJson? stored.toJson = some stored := by
  have read {value : Nat} (fits : value < 2 ^ 64) :
      Json.readUInt64 (.ofNat value) = some (UInt64.ofNat value) := by
    have small : value < UInt64.size := fits
    simp [Json.readUInt64, Json.readNatBelow, Json.ofNat, small]
  have source : Json.source? ["chainId", "block"] stored.toJson =
      some ⟨[("chainId", .ofNat stored.chain), ("block", .ofNat stored.block)], false⟩ := rfl
  have chainRead : (UInt64.ofNat stored.chain).toNat = stored.chain :=
    UInt64.toNat_ofNat_of_lt' chainFits
  have blockRead : (UInt64.ofNat stored.block).toNat = stored.block :=
    UInt64.toNat_ofNat_of_lt' blockFits
  simp [ofJson?, source, Json.Source.required, Json.Source.value?, List.lookup_cons, read chainFits,
    read blockFits, chainRead, blockRead]

namespace Checkpoint

open FileTree

@[simp] theorem path_ofStored (path : String) (chain : Nat) (stored : Option StoredBlock) :
    (ofStored path chain stored).path = path := by
  rcases stored with _ | stored
  · rfl
  · rw [ofStored]
    split <;> rfl

@[simp] theorem chain_ofStored (path : String) (chain : Nat) (stored : Option StoredBlock) :
    (ofStored path chain stored).chain = chain := by
  rcases stored with _ | stored
  · rfl
  · rw [ofStored]
    split <;> rfl

/-! ## Loading -/

/-- A checkpoint is loaded with one question. -/
theorem run_load (path : String) (chain : Nat) :
    (load path chain).run = .ask (.read path) fun reply =>
      .done ((Files.readOutcome path StoredBlock.ofJson? reply).map (ofStored path chain)) := by
  change (Files.readJsonIfThere path StoredBlock.ofJson?).run.andThen
    (ExceptT.bindCont fun stored => pure (ofStored path chain stored)) = _
  rw [Files.run_readJsonIfThere]
  change Program.ask _ _ = _
  congr 1
  funext reply
  change Program.andThen (.done (Files.readOutcome path StoredBlock.ofJson? reply)) _ = _
  cases Files.readOutcome path StoredBlock.ofJson? reply <;> rfl

/-- What a checkpoint is loaded as, by what its file answers. -/
theorem perform_load
    (tree : FileTree)
    (path : String)
    (chain : Nat) :
    tree.perform (load path chain).run =
      ((Files.readOutcome path StoredBlock.ofJson? (tree.read path)).map (ofStored path chain),
        tree) := by
  rw [run_load]
  rfl

section Loading

variable
  {tree : FileTree}
  {path : String}
  {chain : Nat}
  {checkpoint : Checkpoint}

/-- A checkpoint is loaded if its file is understood or is not there. -/
theorem perform_load_eq_ok_iff :
    tree.perform (load path chain).run = (.ok checkpoint, tree) ↔
      ∃ stored, Files.readOutcome path StoredBlock.ofJson? (tree.read path) = .ok stored ∧
        ofStored path chain stored = checkpoint := by
  rw [perform_load]
  cases Files.readOutcome path StoredBlock.ofJson? (tree.read path) with
  | error cause => exact iff_of_false nofun nofun
  | ok stored => simp [Except.map]

/-- A stored block is loaded for its chain. -/
theorem perform_load_of_stored
    {block : Nat}
    (chainFits : chain < 2 ^ 64)
    (blockFits : block < 2 ^ 64)
    (held : tree.read path =
      .ok (Bytes.ofText (StoredBlock.toJson ⟨chain, block⟩).indented)) :
    tree.perform (load path chain).run = (.ok ⟨path, chain, some block⟩, tree) := by
  have understood : (Json.parse (StoredBlock.toJson ⟨chain, block⟩).indented).bind
      StoredBlock.ofJson? = some ⟨chain, block⟩ := by
    rw [Json.parse_indented (@StoredBlock.readable_toJson ⟨chain, block⟩ chainFits blockFits)]
    exact @StoredBlock.ofJson?_toJson ⟨chain, block⟩ chainFits blockFits
  rw [perform_load_eq_ok_iff, held, Files.readOutcome]
  refine ⟨some ⟨chain, block⟩, ?_, if_pos rfl⟩
  simp only [Text.ofUtf8?_ofText, understood]

/-- A checkpoint that has a block is none of another chain. -/
theorem perform_load_of_other
    {other : Nat}
    (different : other ≠ chain)
    (loaded : tree.perform (load path chain).run = (.ok checkpoint, tree))
    (present : checkpoint.block ≠ none) :
    tree.perform (load path other).run = (.ok (empty path other), tree) := by
  obtain ⟨stored, understood, rfl⟩ := perform_load_eq_ok_iff.mp loaded
  refine perform_load_eq_ok_iff.mpr ⟨stored, understood, ?_⟩
  cases stored with
  | none => exact absurd rfl present
  | some stored =>
      rw [ofStored] at present ⊢
      by_cases same : stored.chain = chain
      · exact if_neg fun otherwise => different (otherwise.symm.trans same)
      · rw [if_neg same] at present
        exact absurd rfl present

end Loading

/-! ## Storing -/

/-- A checkpoint is found at a path among files that are in order, so that it can be kept there. -/
structure FoundIn
    (tree : FileTree)
    (path : String)
    (chain : Nat)
    (checkpoint : Checkpoint) : Prop where
  sound : tree.Sound
  noDevice : tree.NoStagedDevice
  rooted : tree.Rooted
  settles : tree.Settles path
  loaded : tree.perform (load path chain).run = (.ok checkpoint, tree)

section FoundIn

variable
  {tree after : FileTree}
  {path : String}
  {chain block : Nat}
  {checkpoint : Checkpoint}

/-- A checkpoint is found with its path. -/
theorem FoundIn.path_eq (found : FoundIn tree path chain checkpoint) :
    checkpoint.path = path := by
  obtain ⟨stored, -, rfl⟩ := perform_load_eq_ok_iff.mp found.loaded
  exact path_ofStored path chain stored

/-- A checkpoint is found for its chain. -/
theorem FoundIn.chain_eq (found : FoundIn tree path chain checkpoint) :
    checkpoint.chain = chain := by
  obtain ⟨stored, -, rfl⟩ := perform_load_eq_ok_iff.mp found.loaded
  exact chain_ofStored path chain stored

/-- Where there is no file, there is no checkpoint yet. -/
theorem foundIn_of_absent
    (sound : tree.Sound)
    (noDevice : tree.NoStagedDevice)
    (rooted : tree.Rooted)
    (settles : tree.Settles path)
    (absent : tree.read path = .error .notFound)
    (chain : Nat) :
    FoundIn tree path chain (.empty path chain) := by
  refine ⟨sound, noDevice, rooted, settles, perform_load_eq_ok_iff.mpr ⟨none, ?_, rfl⟩⟩
  rw [absent]
  rfl

/-- A checkpoint is still found when its file is read as before. -/
theorem FoundIn.of_read_eq
    (found : FoundIn tree path chain checkpoint)
    (continues : tree.Continues after)
    (noDevice : after.NoStagedDevice)
    (rooted : after.Rooted)
    (same : after.read path = tree.read path) :
    FoundIn after path chain checkpoint := by
  refine ⟨continues.sound, noDevice, rooted, found.settles.continues continues, ?_⟩
  obtain ⟨stored, understood, isLoaded⟩ := perform_load_eq_ok_iff.mp found.loaded
  exact perform_load_eq_ok_iff.mpr ⟨stored, same ▸ understood, isLoaded⟩

/-- A block that has been stored is found. -/
theorem FoundIn.of_stored
    (found : FoundIn tree path chain checkpoint)
    (chainFits : chain < 2 ^ 64)
    (blockFits : block < 2 ^ 64)
    (continues : tree.Continues after)
    (noDevice : after.NoStagedDevice)
    (rooted : after.Rooted)
    (held : after.read path =
      .ok (Bytes.ofText (StoredBlock.toJson ⟨chain, block⟩).indented)) :
    FoundIn after path chain { checkpoint with block := some block } := by
  refine ⟨continues.sound, noDevice, rooted, found.settles.continues continues, ?_⟩
  rw [found.path_eq, found.chain_eq]
  exact perform_load_of_stored chainFits blockFits held

/-- While a block is stored, the checkpoint is found as it was or with the new block. -/
theorem FoundIn.keeps_store
    (found : FoundIn tree path chain checkpoint)
    (chainFits : chain < 2 ^ 64)
    (blockFits : block < 2 ^ 64) :
    (checkpoint.store block).run.Keeps moves
      (fun after => FoundIn after path chain checkpoint ∨
        FoundIn after path chain { checkpoint with block := some block })
      (fun result after =>
        (result = .ok () → FoundIn after path chain { checkpoint with block := some block }) ∧
          ∀ cause, result = .error cause → FoundIn after path chain checkpoint) tree := by
  obtain rfl := found.path_eq
  obtain rfl := found.chain_eq
  have kept := (keeps_writeText found.sound found.noDevice checkpoint.path
    (StoredBlock.toJson ⟨checkpoint.chain, block⟩).indented).and_invariant
      (fun _ _ _ _ moved rooted => rooted.of_moves moved) found.rooted
  refine kept.mono ?_ ?_
  · rintro after ⟨undivided, rooted⟩
    rcases undivided.read_of_settles found.sound found.rooted found.settles with same | whole
    · exact .inl (found.of_read_eq undivided.continues undivided.noDevice rooted same)
    · exact .inr (found.of_stored chainFits blockFits undivided.continues undivided.noDevice rooted
        whole)
  · rintro (cause | _) after ⟨undivided, rooted⟩ finished
    · refine ⟨nofun, fun _ _ => ?_⟩
      exact found.of_read_eq undivided.continues undivided.noDevice rooted
        (read_eq_of_spared found.sound found.rooted found.settles undivided.continues finished)
    · refine ⟨fun _ => ?_, nofun⟩
      exact found.of_stored chainFits blockFits undivided.continues undivided.noDevice rooted
        finished

/-- Loading a checkpoint changes nothing and gives the one that is found, unless it fails. -/
theorem FoundIn.keeps_load (found : FoundIn tree path chain checkpoint) :
    (load path chain).run.Keeps truthfulMoves (fun after => after = tree)
      (fun result _ => ∀ loaded, result = .ok loaded → loaded = checkpoint) tree := by
  obtain ⟨stored, understood, same⟩ := perform_load_eq_ok_iff.mp found.loaded
  rw [run_load]
  refine ⟨rfl, ?_⟩
  rintro reply after ⟨⟨rfl, answered⟩, truthful⟩
  refine ⟨rfl, fun loaded ended => ?_⟩
  have outcome : Files.readOutcome path StoredBlock.ofJson? reply = .ok stored := by
    rcases answered with rfl | ⟨fault, rfl⟩
    · exact understood
    · cases fault with
      | notFound =>
          have absent : after.read path = .error .notFound := truthful rfl
          rwa [absent] at understood
      | _ => cases ended
  rw [outcome] at ended
  exact (Except.ok.inj ended).symm.trans same

end FoundIn

/-! ## What can be loaded -/

/-- What is loaded from a path is one checkpoint and no other: the one that is found there, or one
without a block, where a name of the path is too long for a file to be kept. -/
inductive TrackedIn
    (tree : FileTree)
    (path : String)
    (chain : Nat) : Checkpoint → Prop
  | found
      {checkpoint : Checkpoint}
      (isFound : FoundIn tree path chain checkpoint) : TrackedIn tree path chain checkpoint
  | overlong
      (overlong : Overlong path) : TrackedIn tree path chain (.empty path chain)

section TrackedIn

variable
  {tree : FileTree}
  {path : String}
  {chain block : Nat}
  {checkpoint loaded : Checkpoint}

/-- Where there is no file, there is no checkpoint yet, if the path settles or has a name which is
too long. -/
theorem trackedIn_of_absent
    (sound : tree.Sound)
    (noDevice : tree.NoStagedDevice)
    (rooted : tree.Rooted)
    (reachable : tree.Settles path ∨ Overlong path)
    (absent : tree.read path = .error .notFound)
    (chain : Nat) :
    TrackedIn tree path chain (.empty path chain) := by
  rcases reachable with settles | overlong
  · exact .found (foundIn_of_absent sound noDevice rooted settles absent chain)
  · exact .overlong overlong

/-- While a block is stored, what is loaded is the checkpoint as it was or with the new block. -/
theorem TrackedIn.keeps_store
    (tracked : TrackedIn tree path chain checkpoint)
    (chainFits : chain < 2 ^ 64)
    (blockFits : block < 2 ^ 64) :
    (checkpoint.store block).run.Keeps moves
      (fun after => TrackedIn after path chain checkpoint ∨
        TrackedIn after path chain { checkpoint with block := some block })
      (fun result after => result = .ok () →
        TrackedIn after path chain { checkpoint with block := some block }) tree := by
  cases tracked with
  | found isFound =>
      refine (isFound.keeps_store chainFits blockFits).mono ?_ ?_
      · exact fun _ kept => kept.imp .found .found
      · exact fun _ _ _ finished ended => .found (finished.1 ended)
  | overlong overlong =>
      refine (overlong.keeps_writeText (StoredBlock.toJson ⟨chain, block⟩).indented tree).mono ?_ ?_
      · exact fun _ _ => .inl (.overlong overlong)
      · exact fun _ _ _ refused ended => absurd ended refused

/-- Loading a checkpoint changes nothing and gives what can be loaded, unless it fails. -/
theorem TrackedIn.keeps_load (tracked : TrackedIn tree path chain checkpoint) :
    (load path chain).run.Keeps truthfulMoves (fun after => after = tree)
      (fun result _ => ∀ loaded, result = .ok loaded → loaded = checkpoint) tree := by
  cases tracked with
  | found isFound => exact isFound.keeps_load
  | overlong overlong =>
      rw [run_load]
      refine ⟨rfl, ?_⟩
      rintro (fault | content) after ⟨⟨rfl, answered⟩, -⟩
      · refine ⟨rfl, fun loaded ended => ?_⟩
        cases fault with
        | notFound => exact (Except.ok.inj ended).symm
        | _ => cases ended
      · rcases answered with same | ⟨fault, same⟩
        · exact absurd same.symm overlong.read_ne_ok
        · cases same

/-- Nothing else is loaded from the files as they are. -/
theorem TrackedIn.eq_of_loaded
    (tracked : TrackedIn tree path chain checkpoint)
    (isLoaded : (tree.perform (load path chain).run).1 = .ok loaded) :
    loaded = checkpoint := by
  have led := leads_perform_truthfully (load path chain).run tree
  exact (tracked.keeps_load.of_leads led).2 loaded isLoaded

/-- If no name of its path is too long, the checkpoint is loaded. -/
theorem TrackedIn.perform_load
    (tracked : TrackedIn tree path chain checkpoint)
    (short : ¬ Overlong path) :
    tree.perform (load path chain).run = (.ok checkpoint, tree) := by
  cases tracked with
  | found isFound => exact isFound.loaded
  | overlong overlong => exact absurd overlong short

end TrackedIn

end Checkpoint
end Valset.Scan
