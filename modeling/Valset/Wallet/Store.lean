import Valset.Files
import Valset.Wallet.Keystore

/-!
# Keys in files

Storing a key in a file as a keystore, and getting it back. A stored keystore also names the account
of its key.
-/

namespace Valset

/-- Why a key cannot be read or stored. -/
inductive WalletError
  | key (cause : PrivateKey.Error)
  | keystore
  | file (cause : FileError)
deriving DecidableEq, Repr

/-- A computation that uses files and keys and may fail. -/
abbrev WalletProgram := ExceptT WalletError (Program FileDialogue)

namespace Wallet

/-- A step with files alone. -/
def withFiles {α : Type} (step : FileProgram α) : WalletProgram α :=
  ExceptT.adapt .file step

/-- Reads the fields of an object. -/
def readFields : Json.Reader (List (String × Json))
  | .object fields => some fields
  | _ => none

/-- A keystore together with the account of its key. -/
def withAddress (address : Address) (fields : List (String × Json)) : Json :=
  (Json.object (fields ++ [("address", .ofFixed address)])).canonical

/-- Fails unless a step with files succeeded. -/
def orKeystoreError : Except FileFault Unit → WalletProgram Unit
  | .ok () => return ()
  | .error _ => throw .keystore

/-- Stores a key under a name in a directory; gives the path of its file. -/
def store (key : PrivateKey) (directory name password : String) (seeds : KeystoreSeeds) :
    WalletProgram String := do
  withFiles (Files.makeDirectories directory)
  let path := Path.join directory name
  let content := (Keystore.encrypt key password seeds).toJson.compact
  orKeystoreError (← withFiles (Files.ask (.write path (Bytes.ofText content))))
  let fields ← withFiles (Files.readJson path readFields)
  withFiles (Files.writeJson path (withAddress key.address fields))
  return path

/-- The key that a text of a keystore holds. -/
def keyOf (text password : String) : Except WalletError PrivateKey :=
  match (Json.parse text).bind Keystore.ofJson? with
  | none => .error .keystore
  | some keystore =>
    match keystore.decrypt password with
    | .ok key => .ok key
    | .error .undecryptable => .error .keystore
    | .error .outOfRange => .error (.key .outOfRange)

/-- Gets a key back from its file. -/
def load (path password : String) : WalletProgram PrivateKey := do
  match ← withFiles (Files.tryReadText path) with
  | .ok text => ofExcept (keyOf text password)
  | .error _ => throw .keystore

end Wallet
end Valset
