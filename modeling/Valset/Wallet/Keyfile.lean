import Valset.Wallet.Store

/-!
# References to keys

Where the signing key is kept and how it is called. The password itself is never stored, only the
name of the environment variable that holds it.
-/

namespace Valset

/-- A reference to a stored key. -/
structure Keyfile where
  path : String
  address : Address
  name : String
  passwordVariable : String
deriving DecidableEq

/-- Why a referenced key cannot be used. -/
inductive KeyfileError
  | undecryptable (path : String)
  | noPassword (name passwordVariable : String)
  | noAnswer
deriving DecidableEq, Repr

/-- The wording of an error. -/
def KeyfileError.text : KeyfileError → String
  | undecryptable path => "Could not decrypt keyfile: " ++ path
  | noPassword name passwordVariable =>
    s!"Environment variable {passwordVariable} not found for key {name}. " ++
      "Ensure the variable is set or in a .env file."
  | noAnswer => "IO error: not a terminal"

namespace Keyfile

/-- A reference as JSON. -/
def toJson (keyfile : Keyfile) : Json :=
  .object [
    ("path", .string keyfile.path),
    ("address", .ofFixed keyfile.address),
    ("name", .string keyfile.name),
    ("pw_env_var", .string keyfile.passwordVariable)]

/-- Reads a reference. -/
def ofJson? : Json.Reader Keyfile := fun json => do
  let source ← Json.source? ["path", "address", "name", "pw_env_var"] json
  return {
    path := ← source.required "path" Json.readString
    address := ← source.required "address" Json.readAddress
    name := ← source.required "name" Json.readString
    passwordVariable := ← source.required "pw_env_var" Json.readString
  }

/-- The referenced key, given its password. -/
def decrypt (keyfile : Keyfile) (password : String) :
    ExceptT KeyfileError (Program FileDialogue) PrivateKey :=
  ExceptT.adapt (fun _ => .undecryptable keyfile.path) (Wallet.load keyfile.path password)

/-- The referenced key, given what the environment holds as its password. -/
def decryptWith (keyfile : Keyfile) (password : Option String) :
    ExceptT KeyfileError (Program FileDialogue) PrivateKey :=
  match password with
  | some password => keyfile.decrypt password
  | none => throw (.noPassword keyfile.name keyfile.passwordVariable)

end Keyfile

/-- Why a new key cannot be stored. -/
inductive StoreError
  | alreadyThere (name : String)
  | wallet (cause : WalletError)
deriving DecidableEq, Repr

/-- Stores a key under a name that is not taken yet, and gives the reference to it. -/
def Keyfile.create (key : PrivateKey) (directory name password passwordVariable : String)
    (seeds : KeystoreSeeds) : ExceptT StoreError (Program FileDialogue) Keyfile := do
  let isThere : Bool ← ExceptT.adapt (fun cause => .wallet (.file cause))
    (Files.ask (.isThere (Path.join directory name)))
  if isThere then throw (.alreadyThere name)
  let path ← ExceptT.adapt .wallet (Wallet.store key directory name password seeds)
  return { path, address := key.address, name, passwordVariable }

end Valset
