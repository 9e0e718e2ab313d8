import Valset.CommandLine.Command
import Valset.Proofs.CommandLine.Surroundings
import Valset.Proofs.Config

/-!
# What the commands on the configuration keep

A command that sets a value loads the configuration, changes one field and stores it again. After
any such commands each field has the last value that was set for it, and what was not set is as it
was.
-/

namespace Valset

/-! ## Settings one after the other -/

namespace ConfigSetting

/-- The endpoint that is set for a network. -/
def url? (network : Network) : ConfigSetting → Option String
  | url other text => if other = network then some text else none
  | validatorManager _ => none
  | stakingManager _ => none

/-- The validator manager that is set. -/
def validatorManager? : ConfigSetting → Option Address
  | validatorManager address => some address
  | url _ _ => none
  | stakingManager _ => none

/-- The staking manager that is set. -/
def stakingManager? : ConfigSetting → Option StakingTarget
  | stakingManager target => some target
  | url _ _ => none
  | validatorManager _ => none

/-- The last of the values of a field that are set. -/
def last? {α : Type} (value? : ConfigSetting → Option α) (settings : List ConfigSetting) :
    Option α :=
  (settings.filterMap value?).getLast?

/-- A configuration in which settings have been applied one after the other. -/
def applyAll (settings : List ConfigSetting) (config : Config) : Config :=
  settings.foldl (fun config setting => setting.apply config) config

/-- Each field has the last value that was set for it, else the one that it had before. -/
structure LastSet (settings : List ConfigSetting) (before after : Config) : Prop where
  directory : after.directory = before.directory
  url : ∀ network, after.url network = (last? (url? network) settings).getD (before.url network)
  validatorManager :
    after.validatorManager = (last? validatorManager? settings).or before.validatorManager
  stakingManager : after.stakingManager = (last? stakingManager? settings).or before.stakingManager
  keyfile : after.keyfile = before.keyfile

section Fields

variable
  (setting : ConfigSetting)
  (config : Config)

theorem url_apply (network : Network) :
    (setting.apply config).url network = (url? network setting).getD (config.url network) := by
  cases setting with
  | url other text => cases other <;> cases network <;> rfl
  | validatorManager address => rfl
  | stakingManager target => rfl

theorem validatorManager_apply :
    (setting.apply config).validatorManager =
      (validatorManager? setting).or config.validatorManager := by
  cases setting with
  | url network text => cases network <;> rfl
  | validatorManager address => rfl
  | stakingManager target => rfl

theorem stakingManager_apply :
    (setting.apply config).stakingManager =
      (stakingManager? setting).or config.stakingManager := by
  cases setting with
  | url network text => cases network <;> rfl
  | validatorManager address => rfl
  | stakingManager target => rfl

theorem unset_apply :
    (setting.apply config).directory = config.directory ∧
      (setting.apply config).keyfile = config.keyfile := by
  cases setting with
  | url network text => cases network <;> exact ⟨rfl, rfl⟩
  | validatorManager address => exact ⟨rfl, rfl⟩
  | stakingManager target => exact ⟨rfl, rfl⟩

end Fields

theorem last?_concat
    {α : Type}
    (value? : ConfigSetting → Option α)
    (settings : List ConfigSetting)
    (setting : ConfigSetting) :
    last? value? (settings ++ [setting]) = (value? setting).or (last? value? settings) := by
  rw [last?, List.filterMap_append]
  cases found : value? setting with
  | none => simp [last?, found]
  | some value => simp [found]

theorem lastSet_applyAll
    (settings : List ConfigSetting)
    (config : Config) :
    LastSet settings config (applyAll settings config) := by
  induction settings using List.reverseRecOn with
  | nil => exact ⟨rfl, fun _ => rfl, rfl, rfl, rfl⟩
  | append_singleton settings setting inductionHypothesis =>
      have shape : applyAll (settings ++ [setting]) config =
          setting.apply (applyAll settings config) := by
        simp [applyAll]
      obtain ⟨directory, keyfile⟩ := unset_apply setting (applyAll settings config)
      rw [shape]
      refine ⟨directory.trans inductionHypothesis.directory, fun network => ?_, ?_, ?_,
        keyfile.trans inductionHypothesis.keyfile⟩
      · rw [url_apply, last?_concat, inductionHypothesis.url]
        cases url? network setting <;> rfl
      · rw [validatorManager_apply, last?_concat, inductionHypothesis.validatorManager,
          Option.or_assoc]
      · rw [stakingManager_apply, last?_concat, inductionHypothesis.stakingManager,
          Option.or_assoc]

end ConfigSetting

/-! ## Commands one after the other -/

namespace Command

open ConfigSetting

section Setting

variable
  {world middle later : Surroundings}
  {tree : FileTree}
  {directory : String}
  {options : CommonOptions}
  {setting : ConfigSetting}
  {config : Config}

/-- Setting a value is storing it, after a line for some settings. -/
theorem exists_perform_run_set
    (setting : ConfigSetting)
    (config : Config)
    (world : Surroundings) :
    ∃ printed, world.perform (ConfigCommand.run config (.set setting)).run =
      { world with printed }.perform (ConfigCommand.store (setting.apply config)).run := by
  cases setting with
  | url network text => exact ⟨_, rfl⟩
  | validatorManager address => exact ⟨world.printed, rfl⟩
  | stakingManager target => exact ⟨world.printed, rfl⟩

theorem perform_store_eq_ok_iff :
    world.perform (ConfigCommand.store config).run = (.ok (), later) ↔
      ∃ tree, world.tree.perform config.store.run = (.ok (), tree) ∧
        later = { world with
          tree, printed := world.printed ++ s!"Config stored at {config.file}" ++ "\n" } := by
  rw [ConfigCommand.store, Surroundings.perform_bind_eq_ok_iff]
  constructor
  · rintro ⟨_, middle, storing, told⟩
    obtain ⟨tree, stored, rfl⟩ := Surroundings.perform_withFiles_eq_ok_iff.mp storing
    exact ⟨tree, stored, (Prod.mk.inj told).2.symm⟩
  · rintro ⟨tree, stored, rfl⟩
    exact ⟨(), _, Surroundings.perform_withFiles_eq_ok_iff.mpr ⟨tree, stored, rfl⟩, rfl⟩

/-- A command that sets a value loads the configuration and stores it with the value. -/
theorem perform_set_iff :
    (∃ later, world.perform (run directory options (.config (.set setting))).run =
        (.ok (), later) ∧ later.tree = tree) ↔
      ∃ config, world.tree.perform (Config.load directory).run = (.ok config, world.tree) ∧
        world.tree.perform (setting.apply config).store.run = (.ok (), tree) := by
  constructor
  · rintro ⟨later, done, rfl⟩
    rw [run, Surroundings.perform_bind_eq_ok_iff] at done
    obtain ⟨config, middle, loading, done⟩ := done
    obtain ⟨tree, loaded, rfl⟩ := Surroundings.perform_withFiles_eq_ok_iff.mp loading
    obtain ⟨rfl, -⟩ := Config.of_perform_load loaded
    obtain ⟨printed, storing⟩ := exists_perform_run_set setting config world
    obtain ⟨tree, stored, rfl⟩ := perform_store_eq_ok_iff.mp (storing.symm.trans done)
    exact ⟨config, loaded, stored⟩
  · rintro ⟨config, loaded, stored⟩
    obtain ⟨printed, storing⟩ := exists_perform_run_set setting config world
    have loading : world.perform (CommandProgram.withFiles .config (Config.load directory)).run =
        (.ok config, world) :=
      Surroundings.perform_withFiles_eq_ok_iff.mpr ⟨world.tree, loaded, rfl⟩
    have done := storing.trans (perform_store_eq_ok_iff.mpr ⟨tree, stored, rfl⟩)
    refine ⟨_, Eq.trans ?_ done, rfl⟩
    rw [run, Surroundings.perform_bind_of_ok loading]

end Setting

/-- Commands that each set a value, with the options that stand behind them, succeed one after the
other. -/
inductive Sets (directory : String) :
    Surroundings → List (CommonOptions × ConfigSetting) → Surroundings → Prop
  | nothing (world : Surroundings) : Sets directory world [] world
  | next {world middle later : Surroundings} {options : CommonOptions} {setting : ConfigSetting}
      {commands : List (CommonOptions × ConfigSetting)}
      (done : world.perform (run directory options (.config (.set setting))).run =
        (.ok (), middle))
      (rest : Sets directory middle commands later) :
      Sets directory world ((options, setting) :: commands) later

section Sequences

variable
  {world later : Surroundings}
  {directory : String}
  {commands : List (CommonOptions × ConfigSetting)}
  {config : Config}

/-- After commands that set values, the configuration is the one in which they have been applied. -/
theorem Sets.perform_load
    (sets : Sets directory world commands later)
    (sound : world.tree.Sound)
    (noDevice : world.tree.NoStagedDevice)
    (loaded : world.tree.perform (Config.load directory).run = (.ok config, world.tree)) :
    later.tree.perform (Config.load directory).run =
      (.ok (applyAll (commands.map Prod.snd) config), later.tree) := by
  induction sets generalizing config with
  | nothing world => exact loaded
  | next done rest inductionHypothesis =>
      rename_i world middle later options setting commands
      obtain ⟨found, loadedToo, stored⟩ := perform_set_iff.mp ⟨middle, done, rfl⟩
      obtain rfl : config = found := by
        rw [loaded] at loadedToo
        exact Except.ok.inj (Prod.mk.inj loadedToo).1
      have same : (setting.apply config).directory = directory :=
        (unset_apply setting config).1.trans (Config.of_perform_load loaded).2
      obtain ⟨soundMiddle, noDeviceMiddle, -⟩ := Config.read_of_store sound noDevice stored
      have loadedMiddle := Config.perform_load_of_store sound noDevice stored
      rw [same] at loadedMiddle
      exact inductionHypothesis soundMiddle noDeviceMiddle loadedMiddle

/-- Commands that set values succeed where the configuration can be stored. -/
theorem exists_sets
    (storable : Config.Storable world.tree directory)
    (noDevice : world.tree.NoStagedDevice)
    (loaded : world.tree.perform (Config.load directory).run = (.ok config, world.tree))
    (commands : List (CommonOptions × ConfigSetting)) :
    ∃ later, Sets directory world commands later := by
  induction commands generalizing world config with
  | nil => exact ⟨world, .nothing world⟩
  | cons command commands inductionHypothesis =>
      obtain ⟨options, setting⟩ := command
      have same : (setting.apply config).directory = directory :=
        (unset_apply setting config).1.trans (Config.of_perform_load loaded).2
      obtain ⟨tree, stored, storableLater⟩ := Config.exists_perform_store (same ▸ storable)
      obtain ⟨middle, done, rfl⟩ := perform_set_iff.mpr ⟨config, loaded, stored⟩
      have loadedMiddle := Config.perform_load_of_store storable.sound noDevice stored
      obtain ⟨-, noDeviceMiddle, -⟩ := Config.read_of_store storable.sound noDevice stored
      rw [same] at storableLater loadedMiddle
      obtain ⟨later, rest⟩ := inductionHypothesis storableLater noDeviceMiddle loadedMiddle
      exact ⟨later, .next done rest⟩

end Sequences

/-- A configuration that is stored is loaded again, whatever it holds. After commands that set
values, each on the configuration that it loads, every field has the last value that was set for it
or else its first one. Where the file of a directory can be written, storing and setting succeed. -/
theorem keeps_what_was_set
    {world : Surroundings}
    (sound : world.tree.Sound)
    (noDevice : world.tree.NoStagedDevice) :
    (∀ config : Config,
      (∀ later, world.tree.perform config.store.run = (.ok (), later) →
        later.perform (Config.load config.directory).run = (.ok config, later)) ∧
      (Config.Storable world.tree config.directory →
        ∃ later, world.tree.perform config.store.run = (.ok (), later))) ∧
    ∀ (directory : String) (initial : Config),
      world.tree.perform (Config.load directory).run = (.ok initial, world.tree) →
        ∀ commands : List (CommonOptions × ConfigSetting),
          (∀ later, Sets directory world commands later →
            ∃ final, later.tree.perform (Config.load directory).run = (.ok final, later.tree) ∧
              LastSet (commands.map Prod.snd) initial final) ∧
          (Config.Storable world.tree directory →
            ∃ later, Sets directory world commands later) := by
  refine ⟨fun config => ⟨fun later stored => ?_, fun storable => ?_⟩,
    fun directory initial loaded commands => ⟨fun later sets => ?_, fun storable => ?_⟩⟩
  · exact Config.perform_load_of_store sound noDevice stored
  · obtain ⟨later, stored, -⟩ := Config.exists_perform_store storable
    exact ⟨later, stored⟩
  · exact ⟨_, sets.perform_load sound noDevice loaded, lastSet_applyAll _ initial⟩
  · exact exists_sets storable noDevice loaded commands

/-- A directory is made where there are no files, and the configuration is stored there. -/
theorem storable_empty : Config.Storable .empty "conf" :=
  ⟨FileTree.sound_empty, "conf", _, FileTree.workingDirectory ++ ["conf"], rfl, rfl,
    ⟨by decide, rfl, rfl⟩, .inl (by decide), by decide⟩

/-- Options that change nothing. -/
def plainOptions : CommonOptions :=
  ⟨.fuji, none, none, none, none⟩

/-- Commands that set two endpoints for one network, with a manager in between. -/
def sampleCommands : List (CommonOptions × ConfigSetting) := [
  (plainOptions, .url .fuji "https://first.example"),
  (plainOptions, .validatorManager (.ofNat 3)),
  (plainOptions, .url .fuji "a'b\"c\\\n\u2603")]

/-- Of two endpoints that are set for a network the second one is kept, with the manager that is set
in between and the endpoints that are not set. -/
theorem sampleCommands_kept :
    ∃ later final, Sets "conf" .quiet sampleCommands later ∧
      later.tree.perform (Config.load "conf").run = (.ok final, later.tree) ∧
      final.fujiUrl = "a'b\"c\\\n\u2603" ∧ final.validatorManager = some (.ofNat 3) ∧
      final.mainnetUrl = (Config.new "conf").mainnetUrl ∧ final.keyfile = none := by
  obtain ⟨_, kept⟩ :=
    @keeps_what_was_set .quiet FileTree.sound_empty FileTree.noStagedDevice_empty
  obtain ⟨lasts, succeed⟩ := kept "conf" (.new "conf") rfl sampleCommands
  obtain ⟨later, sets⟩ := succeed storable_empty
  obtain ⟨final, loaded, last⟩ := lasts later sets
  exact ⟨later, final, sets, loaded, last.url .fuji, last.validatorManager, last.url .mainnet,
    last.keyfile⟩

end Command
end Valset
