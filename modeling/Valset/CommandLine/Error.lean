import Valset.CommandLine.JsonArgument
import Valset.Error
import Valset.Message.Error
import Valset.Wallet.Keyfile

/-!
# Errors of commands

Why a command that has been understood does not succeed.
-/

namespace Valset

/-- Why a command fails. -/
inductive CommandError
  | config (cause : FileError)
  | manager (cause : ManagerError)
  | message (cause : MessageError)
  | file (cause : FileError)
  | notJson
  | keyfile (cause : KeyfileError)
  | wallet (cause : WalletError)
  | noAnswer
  | noManagerAddress
  | noStakingManager
  | noKeyfile
  | keyAlreadyThere (name : String)

namespace CommandError

/-- The error of an argument that gives no value. -/
def ofJsonArgument : CommandLine.JsonArgumentError → CommandError
  | .notJson => notJson
  | .file cause => file cause

/-- The error of a key that cannot be stored. -/
def ofStore : StoreError → CommandError
  | .alreadyThere name => keyAlreadyThere name
  | .wallet cause => wallet cause

/-- The wording of an error, as far as it has one of its own. -/
def text : CommandError → String
  | config cause => cause.text
  | manager cause => cause.text
  | message cause => cause.message
  | file cause => cause.text
  | notJson => "the value does not fit"
  | keyfile cause => cause.text
  | wallet (.file cause) => cause.text
  | wallet _ => "the key cannot be used"
  | noAnswer => "IO error: not a terminal"
  | noManagerAddress =>
    "No validator manager address. Pass --manager or run `valman config set manager`"
  | noStakingManager => "No staking manager address. " ++
      "Pass --staking-manager or run `valman config set staking-manager`"
  | noKeyfile => "No keyfile configured. Run `valman key create` or `valman config set keyfile`"
  | keyAlreadyThere name => s!"Key {name} already exists"

end CommandError
end Valset
