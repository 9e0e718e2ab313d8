import Valset.CommandLine.Dialogue
import Valset.Config
import Valset.Manager.StakingManager
import Valset.Manager.ValidatorManager

/-!
# Contexts of commands

Which node and which managers a command works with: what stands on the command line wins over what
the configuration holds.
-/

namespace Valset

/-- What the command line says in place of the configuration. -/
structure Overrides where
  url : Option String := none
  validatorManager : Option Address := none
  stakingManager : Option Address := none
  token : Option TokenKind := none

/-- A configuration, the network that is used, and what the command line says. -/
structure Context where
  config : Config
  network : Network
  overrides : Overrides

namespace Context

/-- The URL of the node. -/
def url (context : Context) : String :=
  context.overrides.url.getD (context.config.url context.network)

/-- The validator manager. -/
def validatorManager (context : Context) : Except CommandError ValidatorManager :=
  match context.overrides.validatorManager <|> context.config.validatorManager with
  | some address => .ok ⟨address⟩
  | none => .error .noManagerAddress

/-- The staking manager and how it takes stake. The kind that is stored counts for the stored
address only; without one, stake is taken in the chain's own token. -/
def stakingTarget (context : Context) : Except CommandError StakingTarget := do
  let stored := context.config.stakingManager
  match context.overrides.stakingManager <|> stored.map (·.address) with
  | none => throw .noStakingManager
  | some address =>
    let storedToken := (stored.filter fun target => target.address = address).map (·.token)
    return { address, token := (context.overrides.token <|> storedToken).getD .native }

/-- The node, for reading. -/
def reader (context : Context) : Except CommandError Endpoint :=
  match Url.parse context.url with
  | .ok url => .ok { url, signer := none }
  | .error cause => .error (.manager (.invalidUrl context.url cause))

/-- The configured key, whose password comes from the environment or the terminal. -/
def unlock (keyfile : Keyfile) : CommandProgram PrivateKey := do
  let password : Option String ← CommandProgram.ask (.setting keyfile.passwordVariable)
  match password with
  | some password => CommandProgram.withFiles .keyfile (keyfile.decrypt password)
  | none =>
    let answer : Option String ← CommandProgram.ask
      (.entry .secret s!"Password for key {keyfile.name}")
    match answer with
    | some password => CommandProgram.withFiles .keyfile (keyfile.decrypt password)
    | none => throw (.keyfile .noAnswer)

/-- The configured reference to a key. -/
def keyfile (config : Config) : Except CommandError Keyfile :=
  match config.keyfile with
  | some keyfile => .ok keyfile
  | none => .error .noKeyfile

/-- The node together with the configured key, which is bound to the chain of the node. -/
def signer (context : Context) : CommandProgram (Endpoint × Address) := do
  let key ← unlock (← ofExcept (keyfile context.config))
  let endpoint ← ofExcept context.reader
  match ← CommandProgram.operate endpoint (Operation.ask .chainId) with
  | .error cause => throw (.manager (.ofCall (.ofProviderError cause)))
  | .ok (chainId : UInt64) =>
    return ({ endpoint with signer := some { key, chainId } }, key.address)

/-- The staking manager, used by an account or by nobody in particular. -/
def stakingManager (context : Context) (sender : Option Address) :
    Except CommandError StakingManager := do
  let target ← context.stakingTarget
  return { address := target.address, kind := target.token, sender }

end Context
end Valset
