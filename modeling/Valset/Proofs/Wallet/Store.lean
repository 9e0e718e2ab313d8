import Valset.Proofs.Files.TreePrograms
import Valset.Proofs.Wallet.Keystore

/-!
# Keys in a directory

What storing a key does to the files of a directory, and what can be got back from them. A key is
first written under its own name, then beside it under the name of its staging file, and then moved
over the first text.
-/

namespace Valset
namespace Wallet

/-! ## Steps with files -/

section WithFiles

variable
  {α β : Type}
  {tree later : FileTree}

theorem perform_withFiles
    {step : FileProgram α}
    {value : α}
    (done : tree.perform step.run = (.ok value, later)) :
    tree.perform (withFiles step).run = (.ok value, later) :=
  FileTree.perform_adapt_eq_ok_iff.mpr done

/-- Giving a result after a step leaves the tree as it is. -/
theorem perform_withFiles_pure
    (step : FileProgram α)
    (value : β)
    (tree : FileTree) :
    (tree.perform (withFiles step >>= fun _ => pure value).run).2 =
      (tree.perform step.run).2 := by
  change (tree.perform ((step.run.andThen fun result =>
    .done (result.mapError WalletError.file)).andThen (ExceptT.bindCont _))).2 = _
  rw [FileTree.perform_andThen, FileTree.perform_andThen]
  cases (tree.perform step.run).1 <;> rfl

end WithFiles

/-! ## Storing one key -/

/-- A key that is to be stored under a plain name. -/
structure Request where
  key : PrivateKey
  name : String
  password : String
  seeds : KeystoreSeeds
  plain : Path.Plain name
  short : name.utf8ByteSize ≤ FileTree.longestName
  sized : seeds.Sized

/-- Stores the key of a request in a directory. -/
def Request.store (request : Request) (directory : String) : WalletProgram String :=
  Wallet.store request.key directory request.name request.password request.seeds

/-- The key of a request can be got back from what stands under its name. -/
def Request.Held (request : Request) (place : Location) (tree : FileTree) : Prop :=
  ∃ text, tree.standing? (place ++ [request.name]) = some (.file (Bytes.ofText text)) ∧
    keyOf text request.password = .ok request.key

/-- What storing a key makes of a tree. The key is held under its name, and a file that stood under
the name of its staging file is gone. -/
structure Stored
    (place : Location)
    (request : Request)
    (before after : FileTree) : Prop where
  continues : before.Continues after
  held : request.Held place after
  staged : (Files.staging request.name).utf8ByteSize ≤ FileTree.longestName →
    before.standing? (place ++ [Files.staging request.name]) ≠ some .directory →
    after.standing? (place ++ [Files.staging request.name]) = none
  others : ∀ location, location ≠ place ++ [request.name] →
    location ≠ place ++ [Files.staging request.name] →
    after.standing? location = before.standing? location

/-- The file of a request can be written in a directory, and no device is in its way. -/
structure Request.Admissible (request : Request) (place : Location) (tree : FileTree) : Prop where
  writable : tree.Writable (place ++ [request.name])
  noDevice : ∀ isFull,
    tree.standing? (place ++ [Files.staging request.name]) ≠ some (.device isFull)

section Store

variable
  {tree : FileTree}
  {directory : String}
  {place : Location}
  {request : Request}

theorem Request.locate_join
    (request : Request)
    (opened : tree.Opened directory place) :
    tree.locate (Path.join directory request.name) = .ok (place ++ [request.name]) := by
  rw [opened.locate_join request.plain, if_neg (Nat.not_lt.mpr request.short)]

/-- What is left of storing a key once its file has a first text: the account is put into it. -/
def Request.addAccount (request : Request) (directory : String) : WalletProgram String :=
  withFiles (Files.writeJson (Path.join directory request.name)
    (withAddress request.key.address
      (Keystore.encrypt request.key request.password request.seeds).fields)) >>= fun _ =>
    pure (Path.join directory request.name)

/-- Until the account is put into it, the file of a key has its first text. -/
theorem exists_perform_addAccount
    (sound : tree.Sound)
    (opened : tree.Opened directory place)
    (admissible : request.Admissible place tree) :
    ∃ first,
      tree.Becomes (Function.update tree.standing? (place ++ [request.name])
        (some (.file (Bytes.ofText (firstText request.key request.password request.seeds)))))
        first ∧
      tree.perform (request.store directory).run =
        first.perform (request.addAccount directory).run := by
  obtain ⟨first, wrote, becomes⟩ := FileTree.exists_write sound (request.locate_join opened)
    admissible.writable (Bytes.ofText (firstText request.key request.password request.seeds))
  refine ⟨first, becomes, ?_⟩
  have openedFirst := opened.continues (becomes.continues_update admissible.writable.notDirectory)
  have made : tree.perform (withFiles (Files.makeDirectories directory)).run = (.ok (), tree) :=
    perform_withFiles (FileTree.perform_makeDirectories opened.makeDirectories)
  have asked : tree.perform (Files.ask (.write (Path.join directory request.name)
      (Bytes.ofText (firstText request.key request.password request.seeds)))).run =
        (.ok (.ok ()), first) := by
    rw [FileTree.perform_ask, Files.answer_write wrote]
  have readBack : first.perform (withFiles (Files.readJson (Path.join directory request.name)
      readFields)).run =
        (.ok (Keystore.encrypt request.key request.password request.seeds).fields, first) := by
    apply perform_withFiles
    apply FileTree.perform_readJson
    · apply FileTree.read_of_file (request.locate_join openedFirst)
      rw [becomes.standing, Function.update_self]
    · rw [parse_firstText]
      rfl
  let rest (fields : List (String × Json)) : WalletProgram String :=
    withFiles (Files.writeJson (Path.join directory request.name)
      (withAddress request.key.address fields)) >>= fun _ =>
        pure (Path.join directory request.name)
  let behind (reply : Except FileFault Unit) : WalletProgram String :=
    orKeystoreError reply >>= fun _ =>
      withFiles (Files.readJson (Path.join directory request.name) readFields) >>= rest
  have writtenFirst : tree.perform (request.store directory).run =
      first.perform (behind (.ok ())).run := by
    rw [Request.store, store, FileTree.perform_bind_of_ok made]
    exact FileTree.perform_bind_of_ok (perform_withFiles asked) behind
  have readAgain : first.perform (behind (.ok ())).run = first.perform
      (rest (Keystore.encrypt request.key request.password request.seeds).fields).run :=
    FileTree.perform_bind_of_ok readBack rest
  exact writtenFirst.trans readAgain

/-- Putting the account into the file of a key replaces the file, for its directory is there. -/
theorem perform_writeText_join
    (opened : tree.Opened directory place)
    (request : Request)
    (text : String) :
    tree.perform (Files.writeText (Path.join directory request.name) text).run =
      tree.perform (Files.replaceText (Path.join directory request.name) text) := by
  apply FileTree.perform_writeText
  intro parent found
  obtain ⟨other, foundOther, begins⟩ := opened.exists_parent? request.plain
  obtain rfl : other = parent := Option.some.inj (foundOther.symm.trans found)
  rcases begins with rfl | openedParent
  · rfl
  · exact openedParent.makeDirectories

theorem exists_perform_store
    (sound : tree.Sound)
    (opened : tree.Opened directory place)
    (admissible : request.Admissible place tree) :
    ∃ first,
      tree.Becomes (Function.update tree.standing? (place ++ [request.name])
        (some (.file (Bytes.ofText (firstText request.key request.password request.seeds)))))
        first ∧
      (tree.perform (request.store directory).run).2 =
        (first.perform (Files.replaceText (Path.join directory request.name)
          (finalText request.key request.password request.seeds))).2 := by
  obtain ⟨first, becomes, performed⟩ := exists_perform_addAccount sound opened admissible
  have openedFirst := opened.continues (becomes.continues_update admissible.writable.notDirectory)
  refine ⟨first, becomes, ?_⟩
  rw [performed, Request.addAccount, perform_withFiles_pure, Files.writeJson,
    perform_writeText_join openedFirst]
  rfl

section Texts

variable
  {first : FileTree}
  (becomes : tree.Becomes (Function.update tree.standing? (place ++ [request.name])
    (some (.file (Bytes.ofText (firstText request.key request.password request.seeds))))) first)

include becomes

theorem standing?_staging :
    first.standing? (place ++ [Files.staging request.name]) =
      tree.standing? (place ++ [Files.staging request.name]) := by
  rw [becomes.standing, Function.update_of_ne (Files.beside_staging place request.name)]

variable
  (admissible : request.Admissible place tree)

include admissible

/-- The key is in the first text already. -/
theorem stored_firstText
    (refused : (Files.staging request.name).utf8ByteSize ≤ FileTree.longestName →
      tree.standing? (place ++ [Files.staging request.name]) = some .directory) :
    Stored place request tree first := by
  refine ⟨becomes.continues_update admissible.writable.notDirectory,
    ⟨_, ?_, keyOf_firstText _ _ request.sized⟩, ?_, ?_⟩
  · rw [becomes.standing, Function.update_self]
  · intro short notDirectory
    exact absurd (refused short) notDirectory
  · intro location notName _
    rw [becomes.standing, Function.update_of_ne notName]

theorem writable_staging
    (notDirectory : tree.standing? (place ++ [Files.staging request.name]) ≠ some .directory) :
    first.Writable (place ++ [Files.staging request.name]) := by
  rw [FileTree.Writable, standing?_staging becomes]
  cases stands : tree.standing? (place ++ [Files.staging request.name]) with
  | none => exact .inl rfl
  | some standing =>
      cases standing with
      | directory => exact absurd stands notDirectory
      | file old => exact .inr ⟨old, rfl⟩
      | device isFull => exact absurd stands (admissible.noDevice isFull)

/-- The final text takes the place of the first one where it can be put together. -/
theorem stored_finalText
    (opened : tree.Opened directory place)
    (short : (Files.staging request.name).utf8ByteSize ≤ FileTree.longestName)
    (notDirectory : tree.standing? (place ++ [Files.staging request.name]) ≠ some .directory) :
    Stored place request tree (first.perform (Files.replaceText
      (Path.join directory request.name)
      (finalText request.key request.password request.seeds))).2 := by
  have continues := becomes.continues_update admissible.writable.notDirectory
  have sameStaging := standing?_staging becomes
  have writable := writable_staging becomes admissible notDirectory
  have nameNotDirectory : first.standing? (place ++ [request.name]) ≠ some .directory := by
    simp [becomes.standing]
  obtain ⟨moved, performed, replaced⟩ := Files.exists_perform_replaceText becomes.sound
    (opened.continues continues) request.plain short writable nameNotDirectory
    (finalText request.key request.password request.seeds)
  rw [performed]
  have kept := replaced.continues fun location isDirectory => by
    rw [Function.update_of_ne, Function.update_of_ne, isDirectory]
    · rintro rfl
      exact notDirectory (sameStaging.symm.trans isDirectory)
    · rintro rfl
      exact nameNotDirectory isDirectory
  refine ⟨continues.trans kept, ⟨_, ?_, keyOf_finalText _ _ request.sized⟩, ?_, ?_⟩
  · rw [replaced.standing, Function.update_self]
  · intro _ _
    rw [replaced.standing, Function.update_of_ne (Files.beside_staging place request.name),
      Function.update_self]
  · intro location notName notStaging
    rw [replaced.standing, Function.update_of_ne notName, Function.update_of_ne notStaging,
      becomes.standing, Function.update_of_ne notName]

end Texts

/-- Storing a key under a plain name puts it there. -/
theorem stored_of_perform
    (sound : tree.Sound)
    (opened : tree.Opened directory place)
    (admissible : request.Admissible place tree) :
    Stored place request tree (tree.perform (request.store directory).run).2 := by
  obtain ⟨first, becomes, performed⟩ := exists_perform_store sound opened admissible
  have openedFirst := opened.continues (becomes.continues_update admissible.writable.notDirectory)
  have stagingPath : Files.staging (Path.join directory request.name) =
      Path.join directory (Files.staging request.name) :=
    request.plain.join_append directory ".tmp"
  have located := openedFirst.locate_join (Files.plain_staging request.plain)
  rw [← stagingPath] at located
  rw [performed]
  by_cases short : (Files.staging request.name).utf8ByteSize ≤ FileTree.longestName
  · by_cases isDirectory : tree.standing? (place ++ [Files.staging request.name]) = some .directory
    · rw [if_neg (Nat.not_lt.mpr short)] at located
      have refused := FileTree.write_of_directory located
        ((standing?_staging becomes).trans isDirectory)
        (Bytes.ofText (finalText request.key request.password request.seeds))
      rw [Files.perform_replaceText_of_error refused]
      exact stored_firstText becomes admissible fun _ => isDirectory
    · exact stored_finalText becomes admissible opened short isDirectory
  · rw [if_pos (Nat.lt_of_not_le short)] at located
    have refused := FileTree.write_of_error located
      (Bytes.ofText (finalText request.key request.password request.seeds))
    rw [Files.perform_replaceText_of_error refused]
    exact stored_firstText becomes admissible fun possible => absurd possible short

end Store

/-! ## Getting a key back -/

section Load

variable
  {tree : FileTree}
  {directory : String}
  {place : Location}
  {request : Request}

theorem perform_load
    {path : String}
    {result : Except FileFault Bytes}
    (answered : tree.read path = result)
    (password : String) :
    tree.perform (load path password).run =
      (match result.bind Files.textOf with
        | .ok text => keyOf text password
        | .error _ => .error .keystore, tree) := by
  rw [load, FileTree.perform_bind_of_ok
    (perform_withFiles (FileTree.perform_tryReadText answered))]
  cases result.bind Files.textOf with
  | error fault => rfl
  | ok text =>
      change tree.perform (ofExcept (keyOf text password) : WalletProgram PrivateKey).run =
        (keyOf text password, tree)
      cases keyOf text password with
      | error cause => rfl
      | ok key => rfl

/-- A key that is held is got back. -/
theorem load_of_held
    (opened : tree.Opened directory place)
    (held : request.Held place tree) :
    tree.perform (load (Path.join directory request.name) request.password).run =
      (.ok request.key, tree) := by
  obtain ⟨text, standing, isKey⟩ := held
  rw [perform_load (FileTree.read_of_file (request.locate_join opened) standing)]
  simp [Except.bind, Files.textOf, Text.ofUtf8?_ofText, isKey]

theorem load_of_nothing
    (opened : tree.Opened directory place)
    (absent : tree.standing? (place ++ [request.name]) = none) :
    tree.perform (load (Path.join directory request.name) request.password).run =
      (.error .keystore, tree) := by
  rw [perform_load (FileTree.read_of_nothing (request.locate_join opened) absent)]
  rfl

end Load

end Wallet
end Valset
