import Valset.Config
import Valset.Proofs.Files.Written
import Valset.Proofs.Json.Reader

/-!
# Configurations that are stored and loaded

The file of a configuration is a table of what is set, in which texts come first and tables last, so
that it is read in the order in which it was written. Whatever the texts are, a configuration that
has been stored is loaded again.
-/

namespace Valset

/-! ## Parts of a configuration -/

theorem TokenKind.ofJson?_toJson (token : TokenKind) : ofJson? token.toJson = some token := by
  cases token with
  | native => rfl
  | erc20 => rfl

theorem StakingTarget.ofJson?_toJson (target : StakingTarget) :
    ofJson? target.toJson = some target := by
  have source : Json.source? ["address", "token"] target.toJson =
      some ⟨[("address", .ofFixed target.address), ("token", target.token.toJson)], false⟩ := rfl
  simp [ofJson?, source, Json.Source.required, Json.Source.value?, List.lookup_cons,
    Json.readAddress_ofFixed, TokenKind.ofJson?_toJson]

theorem Keyfile.ofJson?_toJson (keyfile : Keyfile) : ofJson? keyfile.toJson = some keyfile := by
  have source : Json.source? ["path", "address", "name", "pw_env_var"] keyfile.toJson =
      some ⟨[("path", .string keyfile.path), ("address", .ofFixed keyfile.address),
        ("name", .string keyfile.name), ("pw_env_var", .string keyfile.passwordVariable)],
        false⟩ := rfl
  simp [ofJson?, source, Json.Source.required, Json.Source.value?, List.lookup_cons,
    Json.readAddress_ofFixed, Json.readString]

namespace Config

/-- The fields of the file that are set. -/
def setFields (config : Config) : List (String × Json) :=
  config.fields.filter fun field => isSet field.2

/-- A configuration is read back from the fields that are set in it. -/
theorem ofJson?_setFields (config : Config) :
    ofJson? config.directory (.object config.setFields) = some config := by
  have source : Json.source? ["mainnet_rpc_url", "fuji_rpc_url", "local_rpc_url",
      "validator_manager", "staking_manager", "default_keyfile"] (.object config.setFields) =
        some ⟨config.setFields, false⟩ := by
    rcases config with ⟨_, _, _, _, _ | _, _ | _, _ | _⟩ <;> rfl
  have mainnetUrl : config.setFields.lookup "mainnet_rpc_url" = some (.string config.mainnetUrl) :=
    rfl
  have fujiUrl : config.setFields.lookup "fuji_rpc_url" = some (.string config.fujiUrl) := rfl
  have localUrl : config.setFields.lookup "local_rpc_url" = some (.string config.localUrl) := rfl
  have validatorManager : (⟨config.setFields, false⟩ : Json.Source).optional "validator_manager"
      Json.readAddress = some config.validatorManager := by
    refine Json.Source.optional_eq_some Json.ofFixed ?_ fun address =>
      congrArg (Option.map some) (Json.readAddress_ofFixed address)
    rcases config with ⟨_, _, _, _, _ | _, _ | _, _ | _⟩ <;> rfl
  have stakingManager : (⟨config.setFields, false⟩ : Json.Source).optional "staking_manager"
      StakingTarget.ofJson? = some config.stakingManager := by
    refine Json.Source.optional_eq_some StakingTarget.toJson ?_ fun target =>
      congrArg (Option.map some) target.ofJson?_toJson
    rcases config with ⟨_, _, _, _, _ | _, _ | _, _ | _⟩ <;> rfl
  have keyfile : (⟨config.setFields, false⟩ : Json.Source).optional "default_keyfile"
      Keyfile.ofJson? = some config.keyfile := by
    refine Json.Source.optional_eq_some Keyfile.toJson ?_ fun keyfile =>
      congrArg (Option.map some) keyfile.ofJson?_toJson
    rcases config with ⟨_, _, _, _, _ | _, _ | _, _ | _⟩ <;> rfl
  simp [ofJson?, source, Json.Source.required, Json.Source.value?, mainnetUrl, fujiUrl, localUrl,
    Json.readString, validatorManager, stakingManager, keyfile]

/-- What is set is written as a table whose text keeps its order. -/
theorem exists_toToml_eq (config : Config) :
    ∃ fields, config.toToml = some (.table fields) ∧
      (Toml.table fields).arranged = .table fields ∧
      (Toml.table fields).Readable (Toml.depthLimit - 1) := by
  rcases config with ⟨_, _, _, _, _ | _, _ | _, _ | _⟩ <;>
  exact ⟨_, rfl, rfl, by simp [Toml.depthLimit, Toml.Readable, Toml.ReadableFields]⟩

/-- The text of the file of a configuration. -/
def text (config : Config) : String :=
  (config.toToml.bind Toml.print?).getD ""

/-- The text of the file stands for what is set. -/
theorem exists_parse?_text (config : Config) :
    config.toToml.bind Toml.print? = some config.text ∧
      ∃ fields, Toml.parse? config.text = some fields ∧
        (Toml.table fields).toJson = .object config.setFields := by
  obtain ⟨fields, made, inOrder, readable⟩ := config.exists_toToml_eq
  have printed : config.toToml.bind Toml.print? = some config.text := by
    simp [text, made, Toml.print?]
  have printedTable := printed
  rw [made, Option.bind_some] at printedTable
  have parsed := Toml.parse?_of_print? readable (Nat.sub_le _ _) printedTable
  obtain ⟨read, parsed, same⟩ := Option.map_eq_some_iff.mp parsed
  refine ⟨printed, read, parsed, ?_⟩
  rw [same, inOrder]
  exact Toml.toJson_of_ofJson? made

/-! ## The file -/

section Storing

variable
  {tree later : FileTree}
  {config : Config}
  {directory : String}

theorem store_eq (config : Config) : config.store = Files.writeText config.file config.text := by
  rw [store, Files.writeToml, config.exists_parse?_text.1]

/-- A configuration is read if its file is there. -/
theorem perform_load
    (directory : String)
    (tree : FileTree) :
    tree.perform (load directory).run =
      if tree.isThere (new directory).file then
        tree.perform (Files.readToml (new directory).file (ofJson? directory)).run
      else (.ok (new directory), tree) := by
  have asked : tree.perform (Files.ask (.isThere (new directory).file) : FileProgram Bool).run =
      (.ok (tree.isThere (new directory).file), tree) :=
    FileTree.perform_ask _ tree
  refine (FileTree.perform_bind_of_ok asked _).trans ?_
  split
  · rfl
  · rfl

/-- A configuration is loaded from its text. -/
theorem perform_load_of_read (held : tree.read config.file = .ok (Bytes.ofText config.text)) :
    tree.perform (load config.directory).run = (.ok config, tree) := by
  obtain ⟨-, fields, parsed, same⟩ := config.exists_parse?_text
  refine (perform_load config.directory tree).trans ?_
  refine (if_pos (FileTree.isThere_of_read held)).trans ?_
  refine FileTree.perform_readToml held parsed ?_
  rw [same]
  exact config.ofJson?_setFields

/-- A configuration that has been stored is in its file. -/
theorem read_of_store
    (sound : tree.Sound)
    (noDevice : tree.NoStagedDevice)
    (stored : tree.perform config.store.run = (.ok (), later)) :
    later.Sound ∧ later.NoStagedDevice ∧
      later.read config.file = .ok (Bytes.ofText config.text) := by
  obtain ⟨undivided, finished⟩ :=
    FileTree.perform_of_keeps (FileTree.keeps_writeText sound noDevice config.file config.text)
  rw [← store_eq, stored] at undivided finished
  exact ⟨undivided.continues.sound, undivided.noDevice, finished⟩

/-- A configuration that has been stored is loaded. -/
theorem perform_load_of_store
    (sound : tree.Sound)
    (noDevice : tree.NoStagedDevice)
    (stored : tree.perform config.store.run = (.ok (), later)) :
    later.perform (load config.directory).run = (.ok config, later) :=
  perform_load_of_read (read_of_store sound noDevice stored).2.2

theorem directory_of_ofJson?
    {json : Json}
    (read : ofJson? directory json = some config) :
    config.directory = directory := by
  simp only [ofJson?, Option.bind_eq_bind, Option.bind_eq_some_iff, Option.pure_def,
    Option.some.injEq] at read
  obtain ⟨_, _, _, _, _, _, _, _, _, _, _, _, _, _, rfl⟩ := read
  rfl

/-- Loading changes nothing and gives a configuration of its directory. -/
theorem of_perform_load (loaded : tree.perform (load directory).run = (.ok config, later)) :
    later = tree ∧ config.directory = directory := by
  rw [perform_load] at loaded
  split at loaded
  · obtain ⟨rfl, json, understood⟩ := FileTree.of_perform_readToml loaded
    exact ⟨rfl, directory_of_ofJson? understood⟩
  · obtain ⟨made, rfl⟩ := Prod.mk.inj loaded
    obtain rfl := Except.ok.inj made
    exact ⟨rfl, rfl⟩

end Storing

/-! ## Storing succeeds -/

theorem plain_fileName : Path.Plain fileName :=
  ⟨by decide, by decide, by decide, by decide⟩

/-- The file of a directory can be written: the directory is there or can be made, no directory
stands at the place of the file, and nothing but a file at that of its staging file. -/
structure Storable (tree : FileTree) (directory : String) : Prop where
  sound : tree.Sound
  ready : ∃ parent ready place, Path.parent? (Path.join directory fileName) = some parent ∧
    tree.makeDirectories parent = (.ok (), ready) ∧ ready.Opened directory place ∧
    ready.Writable (place ++ [Files.staging fileName]) ∧
    ready.standing? (place ++ [fileName]) ≠ some .directory

/-- A configuration is stored where it can be, and can be stored there again. -/
theorem exists_perform_store
    {tree : FileTree}
    {config : Config}
    (storable : Storable tree config.directory) :
    ∃ later, tree.perform config.store.run = (.ok (), later) ∧
      Storable later config.directory := by
  obtain ⟨sound, parent, ready, place, found, made, opened, writable, notDirectory⟩ := storable
  have soundReady := (FileTree.opened_of_makeDirectories sound made).1.sound
  obtain ⟨later, replaced, becomes⟩ := Files.exists_perform_replaceText soundReady opened
    plain_fileName (by decide) writable notDirectory config.text
  have stored : tree.perform config.store.run = (.ok (), later) := by
    rw [store_eq]
    exact (FileTree.perform_writeText_of_made found made config.text).trans replaced
  have beside := Files.beside_staging place fileName
  have continues : ready.Continues later := by
    refine becomes.continues fun location directory => ?_
    have notFile : location ≠ place ++ [fileName] := by
      rintro rfl
      exact notDirectory directory
    have notStaging : location ≠ place ++ [Files.staging fileName] := by
      rintro rfl
      exact writable.notDirectory directory
    rw [Function.update_of_ne notFile, Function.update_of_ne notStaging, directory]
  have openedLater := opened.continues continues
  obtain ⟨parentLater, foundLater, there⟩ := openedLater.exists_parent? plain_fileName
  have madeLater : later.makeDirectories parentLater = (.ok (), later) := by
    rcases there with rfl | openedParent
    · rfl
    · exact openedParent.makeDirectories
  refine ⟨later, stored, becomes.sound, parentLater, later, place, foundLater, madeLater,
    openedLater, .inl ?_, ?_⟩
  · rw [becomes.standing, Function.update_of_ne beside, Function.update_self]
  · rw [becomes.standing, Function.update_self]
    simp

end Config
end Valset
