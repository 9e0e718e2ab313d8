import Valset.Proofs.Wallet.Store

/-!
# Storing several keys in a directory

Which keys can be got back after several ones have been stored in a directory under different names.
A key is lost exactly when another one is stored later whose staging file has the name of the key.
-/

namespace Valset
namespace Wallet

/-- The tree after keys have been stored in a directory, one after another. -/
def storeAll (directory : String) (requests : List Request) (tree : FileTree) : FileTree :=
  requests.foldl (fun tree request => (tree.perform (request.store directory).run).2) tree

/-- What getting the key of a request back from a directory comes to. -/
def Request.loaded
    (request : Request)
    (directory : String)
    (tree : FileTree) : Except WalletError PrivateKey :=
  (tree.perform (load (Path.join directory request.name) request.password).run).1

/-- A later request by which the key of an earlier one is lost. -/
def Request.Overwrites (later request : Request) : Prop :=
  Files.staging later.name = request.name

instance (later request : Request) : Decidable (later.Overwrites request) :=
  inferInstanceAs (Decidable (_ = _))

variable
  {tree ready : FileTree}
  {directory : String}
  {place : Location}
  {request later : Request}

@[simp] theorem storeAll_nil (directory : String) (tree : FileTree) :
    storeAll directory [] tree = tree :=
  rfl

@[simp] theorem storeAll_cons
    (directory : String)
    (request : Request)
    (requests : List Request)
    (tree : FileTree) :
    storeAll directory (request :: requests) tree =
      storeAll directory requests (tree.perform (request.store directory).run).2 :=
  rfl

theorem Request.loaded_of_held
    (opened : tree.Opened directory place)
    (held : request.Held place tree) :
    request.loaded directory tree = .ok request.key := by
  rw [loaded, load_of_held opened held]

/-- A key that is not there cannot be loaded. -/
theorem Request.loaded_of_nothing
    (opened : tree.Opened directory place)
    (absent : tree.standing? (place ++ [request.name]) = none) :
    request.loaded directory tree = .error .keystore := by
  rw [loaded, load_of_nothing opened absent]

/-! ## What one more key does to the others -/

namespace Stored

variable
  {before after : FileTree}
  (stored : Stored place later before after)

include stored

/-- A key is lost when its name is that of a staging file. -/
theorem nothing_of_overwrites
    (overwrites : later.Overwrites request)
    (notDirectory : before.standing? (place ++ [request.name]) ≠ some .directory) :
    after.standing? (place ++ [request.name]) = none := by
  rw [Request.Overwrites] at overwrites
  rw [← overwrites] at notDirectory ⊢
  apply stored.staged
  · rw [overwrites]
    exact request.short
  · exact notDirectory

variable
  (different : request.name ≠ later.name)

include different

/-- What is stored later leaves other keys in place. -/
theorem standing?_eq (kept : ¬ later.Overwrites request) :
    after.standing? (place ++ [request.name]) = before.standing? (place ++ [request.name]) := by
  apply stored.others
  · exact Files.place_ne different
  · exact Files.place_ne (Ne.symm kept)

/-- A key stays as long as no staging file has its name. -/
theorem held_of_held
    (kept : ¬ later.Overwrites request)
    (held : request.Held place before) :
    request.Held place after := by
  obtain ⟨text, standing, isKey⟩ := held
  refine ⟨text, ?_, isKey⟩
  rw [stored.standing?_eq different kept]
  exact standing

theorem nothing_of_nothing (absent : before.standing? (place ++ [request.name]) = none) :
    after.standing? (place ++ [request.name]) = none := by
  by_cases overwrites : later.Overwrites request
  · apply stored.nothing_of_overwrites overwrites
    simp [absent]
  · rw [stored.standing?_eq different overwrites]
    exact absent

/-- Another request can be carried out as before. -/
theorem admissible
    (admissible : request.Admissible place before) :
    request.Admissible place after where
  writable := by
    by_cases overwrites : later.Overwrites request
    · exact .inl (stored.nothing_of_overwrites overwrites admissible.writable.notDirectory)
    · rw [FileTree.Writable, stored.standing?_eq different overwrites]
      exact admissible.writable
  noDevice isFull := by
    by_cases overwrites : request.Overwrites later
    · obtain ⟨text, standing, _⟩ := stored.held
      rw [Request.Overwrites] at overwrites
      rw [overwrites, standing]
      simp
    · have notStaging : Files.staging request.name ≠ Files.staging later.name :=
        fun same => different (Files.staging_inj same)
      rw [stored.others _ (Files.place_ne overwrites) (Files.place_ne notStaging)]
      exact admissible.noDevice isFull

end Stored

/-! ## What a whole run does -/

/-- Requests under different names that are still to be carried out. -/
structure Pending
    (directory : String)
    (place : Location)
    (requests : List Request)
    (tree : FileTree) : Prop where
  sound : tree.Sound
  opened : tree.Opened directory place
  admissible : ∀ request ∈ requests, request.Admissible place tree
  apart : requests.Pairwise fun request later => request.name ≠ later.name

namespace Pending

variable
  {requests : List Request}

theorem stored (pending : Pending directory place (request :: requests) tree) :
    Stored place request tree (tree.perform (request.store directory).run).2 :=
  stored_of_perform pending.sound pending.opened
    (pending.admissible request List.mem_cons_self)

theorem different
    (pending : Pending directory place (request :: requests) tree)
    (present : later ∈ requests) :
    request.name ≠ later.name :=
  (List.pairwise_cons.mp pending.apart).1 later present

/-- The requests that follow can be carried out after the first one. -/
theorem tail (pending : Pending directory place (request :: requests) tree) :
    Pending directory place requests (tree.perform (request.store directory).run).2 where
  sound := pending.stored.continues.sound
  opened := pending.opened.continues pending.stored.continues
  admissible other present :=
    pending.stored.admissible (pending.different present).symm
      (pending.admissible other (List.mem_cons_of_mem _ present))
  apart := (List.pairwise_cons.mp pending.apart).2

/-- The directory stays open while keys are stored. -/
theorem opened_storeAll (pending : Pending directory place requests tree) :
    (storeAll directory requests tree).Opened directory place := by
  induction requests generalizing tree with
  | nil => exact pending.opened
  | cons first rest inductionHypothesis => exact inductionHypothesis pending.tail

section Others

variable
  (pending : Pending directory place requests tree)
  (different : ∀ later ∈ requests, request.name ≠ later.name)

include pending different

/-- A key that no later one overwrites is held to the end. -/
theorem held_storeAll
    (kept : ∀ later ∈ requests, ¬ later.Overwrites request)
    (held : request.Held place tree) :
    request.Held place (storeAll directory requests tree) := by
  induction requests generalizing tree with
  | nil => exact held
  | cons first rest inductionHypothesis =>
      rw [List.forall_mem_cons] at different kept
      exact inductionHypothesis pending.tail different.2 kept.2
        (pending.stored.held_of_held different.1 kept.1 held)

theorem nothing_storeAll (absent : tree.standing? (place ++ [request.name]) = none) :
    (storeAll directory requests tree).standing? (place ++ [request.name]) = none := by
  induction requests generalizing tree with
  | nil => exact absent
  | cons first rest inductionHypothesis =>
      rw [List.forall_mem_cons] at different
      exact inductionHypothesis pending.tail different.2
        (pending.stored.nothing_of_nothing different.1 absent)

/-- A key that a later one overwrites is gone in the end. -/
theorem nothing_storeAll_of_overwrites
    (overwritten : ∃ later ∈ requests, later.Overwrites request)
    (held : request.Held place tree) :
    (storeAll directory requests tree).standing? (place ++ [request.name]) = none := by
  induction requests generalizing tree with
  | nil =>
      obtain ⟨_, present, _⟩ := overwritten
      cases present
  | cons first rest inductionHypothesis =>
      rw [List.forall_mem_cons] at different
      by_cases overwrites : first.Overwrites request
      · apply pending.tail.nothing_storeAll different.2
        apply pending.stored.nothing_of_overwrites overwrites
        obtain ⟨text, standing, _⟩ := held
        simp [standing]
      · apply inductionHypothesis pending.tail different.2
        · obtain ⟨later, present, overwrites'⟩ := overwritten
          rcases List.mem_cons.mp present with rfl | inRest
          · exact absurd overwrites' overwrites
          · exact ⟨later, inRest, overwrites'⟩
        · exact pending.stored.held_of_held different.1 overwrites held

/-- A key that is held is lost exactly by a request whose staging file has its name. -/
theorem loaded_storeAll (held : request.Held place tree) :
    request.loaded directory (storeAll directory requests tree) =
      if ∃ later ∈ requests, later.Overwrites request then .error .keystore
      else .ok request.key := by
  split
  · next overwritten =>
    exact Request.loaded_of_nothing pending.opened_storeAll
      (pending.nothing_storeAll_of_overwrites different overwritten held)
  · next kept =>
    have never : ∀ later ∈ requests, ¬ later.Overwrites request :=
      fun later present overwrites => kept ⟨later, present, overwrites⟩
    exact Request.loaded_of_held pending.opened_storeAll
      (pending.held_storeAll different never held)

end Others

/-- All keys can be got back as long as none is stored whose staging file has the name of an earlier
one. -/
theorem all_loaded_iff (pending : Pending directory place requests tree) :
    (∀ request ∈ requests,
        request.loaded directory (storeAll directory requests tree) = .ok request.key) ↔
      requests.Pairwise fun request later => ¬ later.Overwrites request := by
  induction requests generalizing tree with
  | nil => simp
  | cons first rest inductionHypothesis =>
      have others : ∀ later ∈ rest, first.name ≠ later.name :=
        fun later present => pending.different present
      rw [List.forall_mem_cons, List.pairwise_cons, storeAll_cons,
        inductionHypothesis pending.tail, pending.tail.loaded_storeAll others pending.stored.held]
      apply and_congr_left
      intro _
      split
      · next overwritten => simpa using overwritten
      · next kept => simpa using kept

end Pending

/-- The directory is made before a key is stored. -/
theorem perform_store_of_makeDirectories
    (made : tree.makeDirectories directory = (.ok (), ready))
    (opened : ready.Opened directory place)
    (request : Request) :
    tree.perform (request.store directory).run = ready.perform (request.store directory).run := by
  rw [Request.store, store, FileTree.perform_bind_of_ok
    (perform_withFiles (FileTree.perform_makeDirectories made)), FileTree.perform_bind_of_ok
    (perform_withFiles (FileTree.perform_makeDirectories opened.makeDirectories))]

theorem storeAll_of_makeDirectories
    (made : tree.makeDirectories directory = (.ok (), ready))
    (opened : ready.Opened directory place)
    (request : Request)
    (requests : List Request) :
    storeAll directory (request :: requests) tree =
      storeAll directory (request :: requests) ready := by
  rw [storeAll_cons, storeAll_cons, perform_store_of_makeDirectories made opened]

/-- After keys have been stored in a directory under different plain names, each of them can be got
back with its own password if and only if none was stored after another one whose name is that of
its staging file. -/
theorem keys_survive_iff
    (sound : tree.Sound)
    (made : tree.makeDirectories directory = (.ok (), ready))
    (opened : ready.Opened directory place)
    {requests : List Request}
    (admissible : ∀ request ∈ requests, request.Admissible place ready)
    (apart : requests.Pairwise fun request later => request.name ≠ later.name) :
    (∀ request ∈ requests,
        request.loaded directory (storeAll directory requests tree) = .ok request.key) ↔
      requests.Pairwise fun request later => Files.staging later.name ≠ request.name := by
  have continues := (FileTree.opened_of_makeDirectories sound made).1
  have pending : Pending directory place requests ready :=
    ⟨continues.sound, opened, admissible, apart⟩
  cases requests with
  | nil => simp
  | cons first rest =>
      rw [storeAll_of_makeDirectories made opened]
      exact pending.all_loaded_iff

/-! ## Two keys -/

/-- Random bytes that are none. -/
def sampleSeeds : KeystoreSeeds where
  salt := List.replicate 32 0
  start := List.replicate 16 0
  id := List.replicate 16 0

/-- A key under a name. -/
def sampleRequest : Request where
  key := ⟨1, by decide, by decide⟩
  name := "a"
  password := "second"
  seeds := sampleSeeds
  plain := ⟨by decide, by decide, by decide, by decide⟩
  short := by decide
  sized := ⟨rfl, rfl⟩

/-- Another key under the name of the staging file of the first one. -/
def sampleStagingRequest : Request where
  key := ⟨2, by decide, by decide⟩
  name := "a.tmp"
  password := "first"
  seeds := sampleSeeds
  plain := ⟨by decide, by decide, by decide, by decide⟩
  short := by decide
  sized := ⟨rfl, rfl⟩

/-- A tree with an empty directory. -/
def sampleTree : FileTree :=
  FileTree.empty.setEntry ["work", "keys"] .directory

theorem makeDirectories_sample :
    FileTree.empty.makeDirectories "keys" = (.ok (), sampleTree) := by
  rfl

theorem opened_sampleTree : sampleTree.Opened "keys" ["work", "keys"] where
  clean := by decide
  leads := ⟨by rfl, by rfl⟩

theorem admissible_sampleTree (among : request.name ∈ ["a", "a.tmp"]) :
    request.Admissible ["work", "keys"] sampleTree := by
  have absent : ∀ name ∈ ["a", "a.tmp"],
      sampleTree.standing? (["work", "keys"] ++ [name]) = none ∧
        sampleTree.standing? (["work", "keys"] ++ [Files.staging name]) = none := by
    decide
  obtain ⟨nothing, nothingBeside⟩ := absent request.name among
  refine ⟨.inl nothing, fun isFull held => ?_⟩
  rw [nothingBeside] at held
  cases held

/-- Both keys can be got back when the one under the name of the staging file is stored last. -/
theorem sample_keys_survive :
    sampleRequest.loaded "keys"
        (storeAll "keys" [sampleRequest, sampleStagingRequest] FileTree.empty) =
          .ok sampleRequest.key ∧
      sampleStagingRequest.loaded "keys"
        (storeAll "keys" [sampleRequest, sampleStagingRequest] FileTree.empty) =
          .ok sampleStagingRequest.key := by
  have admissible : ∀ request ∈ [sampleRequest, sampleStagingRequest],
      request.Admissible ["work", "keys"] sampleTree := by
    intro request present
    apply admissible_sampleTree
    rcases List.mem_pair.mp present with rfl | rfl <;> decide
  have apart : [sampleRequest, sampleStagingRequest].Pairwise fun request later =>
      request.name ≠ later.name := by
    decide
  have both := (keys_survive_iff FileTree.sound_empty makeDirectories_sample opened_sampleTree
    admissible apart).mpr (by decide)
  exact ⟨both _ (List.mem_pair.mpr (.inl rfl)), both _ (List.mem_pair.mpr (.inr rfl))⟩

/-- A key that could be got back is lost when another one is stored under a name at which nothing
stands. -/
theorem sampleStagingRequest_lost :
    sampleStagingRequest.name ≠ sampleRequest.name ∧
      sampleStagingRequest.loaded "keys"
        (storeAll "keys" [sampleStagingRequest] FileTree.empty) = .ok sampleStagingRequest.key ∧
      (storeAll "keys" [sampleStagingRequest] FileTree.empty).isThere
        (Path.join "keys" sampleRequest.name) = false ∧
      sampleStagingRequest.loaded "keys"
        (storeAll "keys" [sampleStagingRequest, sampleRequest] FileTree.empty) =
          .error .keystore := by
  have continues :=
    (FileTree.opened_of_makeDirectories FileTree.sound_empty makeDirectories_sample).1
  have pending : Pending "keys" ["work", "keys"] [sampleStagingRequest, sampleRequest]
      sampleTree := by
    refine ⟨continues.sound, opened_sampleTree, ?_, ?_⟩
    · intro request present
      apply admissible_sampleTree
      rcases List.mem_pair.mp present with rfl | rfl <;> decide
    · decide
  have started := storeAll_of_makeDirectories makeDirectories_sample opened_sampleTree
    sampleStagingRequest
  refine ⟨by decide, ?_, ?_, ?_⟩
  · rw [started, storeAll_cons, storeAll_nil]
    exact Request.loaded_of_held pending.tail.opened pending.stored.held
  · rw [started, storeAll_cons, storeAll_nil]
    apply FileTree.isThere_of_nothing (sampleRequest.locate_join pending.tail.opened)
    rw [pending.stored.standing?_eq (by decide) (by decide)]
    decide
  · rw [started, storeAll_cons, pending.tail.loaded_storeAll
      (fun later present => pending.different present) pending.stored.held, if_pos]
    exact ⟨sampleRequest, List.mem_singleton_self _, by decide⟩

end Wallet
end Valset
