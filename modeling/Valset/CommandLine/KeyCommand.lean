import Valset.CommandLine.ConfigCommand

/-!
# Commands on keys

Making and importing a signing key, which becomes the one of the configuration, and showing it.
-/

namespace Valset

/-- A command on keys. -/
inductive KeyCommand
  | create (name passwordVariable : String)
  | enter (name passwordVariable : String)
  | describe (withSecret : Bool)

namespace KeyCommand

open CommandLine CommandProgram

/-- The variable that holds the password if no other one is named. -/
def usualVariable : String := "VALMAN_KEYFILE_PASSWORD"

/-- The name of a key and the variable that holds its password. -/
def naming (command : String → String → KeyCommand) : Arguments KeyCommand :=
  command <$> .required (.position "name") .text <*>
    .withDefault (.option "password-env") .text usualVariable

/-- What the commands accept. -/
def usage : List (String × Arguments KeyCommand) := [
  ("create", naming create),
  ("import", naming enter),
  ("show", describe <$> .flag (.flag "private"))]

/-- The random bytes of a new keystore. -/
def seeds : CommandProgram KeystoreSeeds := do
  return {
    salt := ← ask (.randomBytes 32)
    start := ← ask (.randomBytes 16)
    id := ← ask (.randomBytes 16)
  }

/-- Stores a key with a password that somebody enters. -/
def store (config : Config) (key : PrivateKey) (name password passwordVariable : String) :
    CommandProgram Keyfile := do
  let seeds ← seeds
  withFiles .ofStore
    (Keyfile.create key config.keysDirectory name password passwordVariable seeds)

/-- Makes a key the one of the configuration, after asking if that replaces another one. -/
def makeDefault (config : Config) (keyfile : Keyfile) : CommandProgram Unit := do
  let replaces : Option Bool ←
    match config.keyfile with
    | none => pure (some true)
    | some current => ask (.confirmation s!"Replace {current.name} as the signing key?")
  match replaces with
  | none => throw .noAnswer
  | some false => return
  | some true =>
    printLine (s!"Signing with {keyfile.name} from now on. " ++
      s!"Export {keyfile.passwordVariable} before sending transactions")
    withFiles .config (Config.store { config with keyfile := some keyfile })

/-- What is printed for a reference to a key. -/
def description (keyfile : Keyfile) : List String := [
  s!"Key name: {keyfile.name}",
  s!"Path to key: {keyfile.path}",
  s!"Public address: {keyfile.address.toHex}",
  s!"Password variable: {keyfile.passwordVariable}"]

/-- Carries a command out. -/
def run (config : Config) : KeyCommand → CommandProgram Unit
  | create name passwordVariable => do
    let password ← CommandProgram.enter .newSecret "Provide the password to the key"
    let key := PrivateKey.ofRandom (← ask (.randomBytes 40))
    let keyfile ← store config key name password passwordVariable
    printLine s!"Created key {name} with address {keyfile.address.toHex}"
    makeDefault config keyfile
  | enter name passwordVariable => do
    let entered ← CommandProgram.enter .secret "Enter your private key"
    let key ← ofExcept ((PrivateKey.parse entered).mapError fun cause => .wallet (.key cause))
    let password ← CommandProgram.enter .newSecret "Provide the password to the key"
    let keyfile ← store config key name password passwordVariable
    printLine s!"Key with an address {keyfile.address.toHex} has been added"
    makeDefault config keyfile
  | describe withSecret => do
    let keyfile ← ofExcept (Context.keyfile config)
    (description keyfile).forM printLine
    if withSecret then
      let key ← Context.unlock keyfile
      printLine s!"Private key: {key.text}"

end KeyCommand
end Valset
