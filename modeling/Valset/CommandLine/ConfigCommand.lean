import Valset.CommandLine.Context
import Valset.CommandLine.Readers
import Valset.Text.Outline

/-!
# Commands on the configuration

Setting and showing endpoints, managers and the signing key.
-/

namespace Valset

/-- A value of the configuration that is set. -/
inductive ConfigSetting
  | url (network : Network) (url : String)
  | validatorManager (address : Address)
  | stakingManager (target : StakingTarget)

/-- A part of the configuration that is shown. -/
inductive ConfigPart
  | url (network : Network)
  | validatorManager
  | stakingManager
  | keyfile
  | all

/-- A command on the configuration. -/
inductive ConfigCommand
  | set (setting : ConfigSetting)
  | enterKeyfile
  | get (part : ConfigPart)

namespace ConfigSetting

/-- A configuration in which a value has been set. -/
def apply (setting : ConfigSetting) (config : Config) : Config :=
  match setting with
  | url network text => config.setUrl network text
  | validatorManager address => { config with validatorManager := some address }
  | stakingManager target => { config with stakingManager := some target }

/-- What is printed when a value is set, if anything. -/
def notice? : ConfigSetting → Option String
  | url network text => some (Config.setUrlNotice network text)
  | validatorManager _ => none
  | stakingManager _ => none

end ConfigSetting

/-- A reference to a key, laid out. -/
def Keyfile.outline (keyfile : Keyfile) : Text.Outline :=
  .record "EcdsaKeyfile" [
    ("path", .quotedPath keyfile.path),
    ("address", .word keyfile.address.toHex),
    ("name", .quoted keyfile.name),
    ("pw_env_var", .quoted keyfile.passwordVariable)]

/-- The name of a kind at the place of a value. -/
def TokenKind.title : TokenKind → String
  | .native => "Native"
  | .erc20 => "Erc20"

/-- A staking manager, laid out. -/
def StakingTarget.outline (target : StakingTarget) : Text.Outline :=
  .record "StakingManagerConfig" [
    ("address", .word target.address.toHex),
    ("token", .word target.token.title)]

/-- A configuration, laid out. -/
def Config.outline (config : Config) : Text.Outline :=
  .record "ValmanConfig" [
    ("path", .quotedPath config.directory),
    ("mainnet_rpc_url", .quoted config.mainnetUrl),
    ("fuji_rpc_url", .quoted config.fujiUrl),
    ("local_rpc_url", .quoted config.localUrl),
    ("validator_manager", .ofOption (config.validatorManager.map fun address =>
      .word address.toHex)),
    ("staking_manager", .ofOption (config.stakingManager.map (·.outline))),
    ("default_keyfile", .ofOption (config.keyfile.map (·.outline)))]

/-- What is printed for a part of a configuration. -/
def ConfigPart.describe (config : Config) : ConfigPart → String
  | url network => s!"Url for {network.name} is {config.url network}"
  | validatorManager =>
    match config.validatorManager with
    | some address => address.toHex
    | none => "No validator manager set"
  | stakingManager =>
    match config.stakingManager with
    | some target => s!"{target.address.toHex} ({target.token.name})"
    | none => "No staking manager set"
  | keyfile =>
    match config.keyfile with
    | some reference => Text.Outline.text (Keyfile.outline reference)
    | none => "No keyfile set"
  | all => config.outline.text

namespace ConfigCommand

open CommandLine

/-- What the commands that set a value accept. -/
def setters : List (String × Arguments ConfigCommand) := [
  ("rpc", (fun network url => set (.url network url)) <$>
    .required (.position "network") .network <*> .required (.position "rpc-url") .text),
  ("manager", (fun address => set (.validatorManager address)) <$>
    .required (.position "address") .address),
  ("staking-manager", (fun address token => set (.stakingManager ⟨address, token⟩)) <$>
    .required (.position "address") .address <*>
    .withDefault (.option "token") .token .native),
  ("keyfile", pure enterKeyfile)]

/-- What the commands that show a value accept. -/
def getters : List (String × Arguments ConfigCommand) := [
  ("rpc", (fun network => get (.url network)) <$> .required (.position "network") .network),
  ("manager", pure (get .validatorManager)),
  ("staking-manager", pure (get .stakingManager)),
  ("keyfile", pure (get .keyfile)),
  ("config", pure (get .all))]

/-- Writes a configuration and tells where. -/
def store (config : Config) : CommandProgram Unit := do
  CommandProgram.withFiles .config config.store
  CommandProgram.printLine s!"Config stored at {config.file}"

/-- A reference to a key that somebody enters. -/
def enteredKeyfile : CommandProgram Keyfile := do
  let path ← CommandProgram.enter .text "Enter the full path to the keyfile"
  let name ← CommandProgram.enter .text "Enter the keyfile name."
  let passwordVariable ← CommandProgram.enter .text
    ("Enter the password environment variable name. " ++
      "This will be used later to decrypt the keyfile.")
  let keyfile : Keyfile := { path, address := FixedBytes.zero, name, passwordVariable }
  let key ← Context.unlock keyfile
  return { keyfile with address := key.address }

/-- Carries a command out. -/
def run (config : Config) : ConfigCommand → CommandProgram Unit
  | set setting => do
    match setting.notice? with
    | some line => CommandProgram.printLine line
    | none => pure ()
    store (setting.apply config)
  | enterKeyfile => do
    let keyfile ← enteredKeyfile
    CommandProgram.printLine s!"Signing with {keyfile.address.toHex}"
    store { config with keyfile := some keyfile }
  | get part => CommandProgram.printLine (part.describe config)

end ConfigCommand
end Valset
