import Valset.Files.Toml
import Valset.Validator.Json
import Valset.Wallet.Keyfile

/-!
# Configuration

What is kept between runs: an endpoint for each network, the addresses of the managers, and the key
that signs. It stands in a file of TOML; without the file there are defaults.
-/

namespace Valset

/-- The networks with an endpoint of their own. -/
inductive Network
  | mainnet
  | fuji
  | devnet
deriving DecidableEq, Repr

namespace Network

/-- All networks with their names. -/
def names : List (String × Network) :=
  [("mainnet", .mainnet), ("fuji", .fuji), ("local", .devnet)]

/-- The name of a network. -/
def name : Network → String
  | mainnet => "mainnet"
  | fuji => "fuji"
  | devnet => "local"

/-- The network with a name, in letters of one or either case. -/
def ofName? (eitherCase : Bool) (text : String) : Option Network :=
  names.lookup (if eitherCase then String.ofList (text.toList.map Char.toLower) else text)

/-- A network as JSON. -/
def toJson (network : Network) : Json :=
  .string network.name

/-- Reads a network. -/
def ofJson? : Json.Reader Network :=
  Json.readName names

end Network

/-- A staking manager and how it takes stake. -/
structure StakingTarget where
  address : Address
  token : TokenKind
deriving DecidableEq

namespace StakingTarget

/-- A staking manager as JSON. -/
def toJson (target : StakingTarget) : Json :=
  .object [("address", .ofFixed target.address), ("token", target.token.toJson)]

/-- Reads a staking manager. -/
def ofJson? : Json.Reader StakingTarget := fun json => do
  let source ← Json.source? ["address", "token"] json
  return {
    address := ← source.required "address" Json.readAddress
    token := ← source.required "token" TokenKind.ofJson?
  }

end StakingTarget

/-- A configuration, and the directory in which its file stands. -/
structure Config where
  directory : String
  mainnetUrl : String
  fujiUrl : String
  localUrl : String
  validatorManager : Option Address
  stakingManager : Option StakingTarget
  keyfile : Option Keyfile
deriving DecidableEq

namespace Config

/-- The name of the file. -/
def fileName : String := "valman-config.toml"

/-- The configuration before anything has been set. -/
def new (directory : String) : Config where
  directory
  mainnetUrl := "https://api.avax.network/ext/bc/C/rpc"
  fujiUrl := "https://api.avax-test.network/ext/bc/C/rpc"
  localUrl := "http://localhost:9650/ext/bc/C/rpc"
  validatorManager := none
  stakingManager := none
  keyfile := none

/-- The path of the file. -/
def file (config : Config) : String :=
  Path.join config.directory fileName

/-- The directory of the stored keys. -/
def keysDirectory (config : Config) : String :=
  Path.join config.directory "keys"

/-- The endpoint for a network. -/
def url (config : Config) : Network → String
  | .mainnet => config.mainnetUrl
  | .fuji => config.fujiUrl
  | .devnet => config.localUrl

/-- Sets the endpoint for a network. -/
def setUrl (config : Config) (network : Network) (url : String) : Config :=
  match network with
  | .mainnet => { config with mainnetUrl := url }
  | .fuji => { config with fujiUrl := url }
  | .devnet => { config with localUrl := url }

/-- What is printed when the endpoint for a network is set. -/
def setUrlNotice (network : Network) (url : String) : String :=
  s!"Setting {network.name} rpc url to: {url}"

/-- The fields of the file with their values, null where nothing is set. -/
def fields (config : Config) : List (String × Json) := [
  ("mainnet_rpc_url", .string config.mainnetUrl),
  ("fuji_rpc_url", .string config.fujiUrl),
  ("local_rpc_url", .string config.localUrl),
  ("validator_manager", .ofOption (config.validatorManager.map .ofFixed)),
  ("staking_manager", .ofOption (config.stakingManager.map (·.toJson))),
  ("default_keyfile", .ofOption (config.keyfile.map (·.toJson)))]

/-- A configuration as JSON. -/
def toJson (config : Config) : Json :=
  .object config.fields

/-- Whether a value is there. -/
def isSet : Json → Bool
  | .null => false
  | _ => true

/-- A configuration as TOML, without what is not set. -/
def toToml (config : Config) : Option Toml :=
  Toml.ofJson? (.object (config.fields.filter fun field => isSet field.2))

/-- Reads a configuration of a directory. -/
def ofJson? (directory : String) : Json.Reader Config := fun json => do
  let source ← Json.source? ["mainnet_rpc_url", "fuji_rpc_url", "local_rpc_url",
    "validator_manager", "staking_manager", "default_keyfile"] json
  return {
    directory
    mainnetUrl := ← source.required "mainnet_rpc_url" Json.readString
    fujiUrl := ← source.required "fuji_rpc_url" Json.readString
    localUrl := ← source.required "local_rpc_url" Json.readString
    validatorManager := ← source.optional "validator_manager" Json.readAddress
    stakingManager := ← source.optional "staking_manager" StakingTarget.ofJson?
    keyfile := ← source.optional "default_keyfile" Keyfile.ofJson?
  }

/-- Reads the configuration of a directory, or takes the defaults if there is no file. -/
def load (directory : String) : FileProgram Config := do
  let config := new directory
  let isThere : Bool ← Files.ask (.isThere config.file)
  if isThere then Files.readToml config.file (ofJson? directory) else return config

/-- Writes a configuration into its file. -/
def store (config : Config) : FileProgram Unit :=
  Files.writeToml config.file config.toToml

end Config
end Valset
