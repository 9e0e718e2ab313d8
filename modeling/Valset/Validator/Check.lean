import Valset.Error

/-!
# Checks before sending

The checks that the contracts make on requests, made before anything is sent.
-/

namespace Valset

/-- Fails with a cause unless a condition holds. -/
def ensure (condition : Bool) (cause : PreflightError) : Except ManagerError Unit :=
  if condition then .ok () else .error (.preflight cause)

/-- Checks that the recipient of rewards is an account. -/
def checkRecipient (recipient : Address) : Except ManagerError Unit :=
  ensure (!recipient.isZero) .zeroRecipient

/-- Checks that an amount lies between the bounds of a manager. -/
def checkStakeAmount (amount : U256) (settings : StakingSettings) : Except ManagerError Unit :=
  ensure (settings.minimumStakeAmount ≤ amount && amount ≤ settings.maximumStakeAmount)
    (.stakeAmount amount settings.minimumStakeAmount settings.maximumStakeAmount)

/-- Checks a request against the terms of a manager. The first condition that does not hold is the
error. -/
def ValidatorRegistration.check (request : ValidatorRegistration) (settings : StakingSettings) :
    Except ManagerError Unit := do
  ensure (!request.nodeId.hash.isZero) .emptyNodeId
  ensure (request.blsPublicKey.length == blsPublicKeyLength)
    (.wrongBlsPublicKey request.blsPublicKey.length)
  request.remainingBalanceOwner.validate.mapError .message
  request.disableOwner.validate.mapError .message
  ensure (settings.minimumDelegationFeeBips ≤ request.delegationFeeBips &&
      request.delegationFeeBips ≤ maximumDelegationFeeBips)
    (.delegationFee request.delegationFeeBips settings.minimumDelegationFeeBips)
  ensure (settings.minimumStakeDuration ≤ request.minStakeDuration)
    (.stakeDuration request.minStakeDuration settings.minimumStakeDuration)
  checkStakeAmount request.stakeAmount settings
  checkRecipient request.rewardRecipient

end Valset
