import Valset.Proofs.Message.Owner
import Valset.Proofs.Message.Written
import Valset.Validator.Check

/-!
# What a request is checked for

A request to register a validator is judged by a list of conditions, one after the other. It is
accepted if all of them hold, and the first one that does not is what it is rejected for. A period
with the node id, the key and the owners of an accepted request can be written as a register
message.
-/

namespace Valset

/-! ## Conditions -/

/-- What something is judged by: a condition, and the error where it does not hold. -/
structure Condition where
  holds : Prop
  error : ManagerError

/-- The result of judging conditions one after the other, up to the first that does not hold. -/
inductive Judged : List Condition → Except ManagerError Unit → Prop
  | passed : Judged [] (.ok ())
  | rejected
      {condition : Condition}
      (rest : List Condition)
      (fails : ¬ condition.holds) : Judged (condition :: rest) (.error condition.error)
  | next
      {condition : Condition}
      {rest : List Condition}
      {result : Except ManagerError Unit}
      (holds : condition.holds)
      (later : Judged rest result) : Judged (condition :: rest) result

namespace Judged

variable
  {conditions : List Condition}
  {result : Except ManagerError Unit}

theorem single
    {condition : Condition}
    (passes : condition.holds → result = .ok ())
    (fails : ¬ condition.holds → result = .error condition.error) :
    Judged [condition] result := by
  by_cases holds : condition.holds
  · rw [passes holds]
    exact .next holds .passed
  · rw [fails holds]
    exact .rejected [] holds

/-- Checks in a row judge their conditions in a row. -/
theorem bind
    {more : List Condition}
    {following : Except ManagerError Unit}
    (first : Judged conditions result)
    (second : Judged more following) :
    Judged (conditions ++ more) (result >>= fun _ => following) := by
  induction first with
  | passed => exact second
  | rejected rest fails => exact .rejected (rest ++ more) fails
  | next holds _ inductionHypothesis => exact .next holds inductionHypothesis

/-- What passes is what all conditions hold for. -/
theorem eq_ok_iff (judged : Judged conditions result) :
    result = .ok () ↔ ∀ condition ∈ conditions, condition.holds := by
  induction judged with
  | passed => simp
  | rejected rest fails => simp [fails]
  | next holds _ inductionHypothesis => simp [holds, inductionHypothesis]

/-- What does not pass is rejected for the first condition that does not hold. -/
theorem eq_error_iff
    (judged : Judged conditions result)
    {error : ManagerError} :
    result = .error error ↔ ∃ before condition after, conditions = before ++ condition :: after ∧
      (∀ earlier ∈ before, earlier.holds) ∧ ¬ condition.holds ∧ error = condition.error := by
  induction judged with
  | passed => simp
  | @rejected condition rest fails =>
      constructor
      · intro rejected
        exact ⟨[], condition, rest, rfl, nofun, fails, (Except.error.inj rejected).symm⟩
      · rintro ⟨before, failing, after, same, hold, _, rfl⟩
        cases before with
        | nil => rw [(List.cons.inj same).1]
        | cons first before =>
            obtain ⟨rfl, _⟩ := List.cons.inj same
            exact absurd (hold _ List.mem_cons_self) fails
  | @next condition rest result holds _ inductionHypothesis =>
      rw [inductionHypothesis]
      constructor
      · rintro ⟨before, failing, after, rfl, hold, rejected⟩
        exact ⟨condition :: before, failing, after, rfl, List.forall_mem_cons.mpr ⟨holds, hold⟩,
          rejected⟩
      · rintro ⟨before, failing, after, same, hold, fails, rfl⟩
        cases before with
        | nil =>
            obtain ⟨rfl, _⟩ := List.cons.inj same
            exact absurd holds fails
        | cons first before =>
            obtain ⟨rfl, rfl⟩ := List.cons.inj same
            exact ⟨before, failing, after, rfl, (List.forall_mem_cons.mp hold).2, fails, rfl⟩

end Judged

/-! ## Single checks -/

theorem ensure_eq_ok_iff
    {condition : Bool}
    {cause : PreflightError} :
    ensure condition cause = .ok () ↔ condition := by
  rw [ensure]
  split <;> simp [*]

theorem judged_ensure
    {condition : Bool}
    {holds : Prop}
    (same : condition ↔ holds)
    (cause : PreflightError) :
    Judged [⟨holds, .preflight cause⟩] (ensure condition cause) :=
  .single (fun passes => if_pos (same.mpr passes)) fun fails => if_neg (mt same.mp fails)

/-- Rewards may go to every account but the zero address. -/
theorem checkRecipient_eq_ok_iff {recipient : Address} :
    checkRecipient recipient = .ok () ↔ recipient ≠ .zero := by
  simp [checkRecipient, ensure_eq_ok_iff, ← FixedBytes.isZero_iff]

/-- What an owner is judged by. -/
def Owner.conditions (owner : Owner) : List Condition :=
  [⟨owner.Quorate, .message (.invalidOwnerThreshold owner.threshold owner.addresses.length)⟩,
    ⟨owner.addresses.Pairwise fun earlier later => earlier.lt later,
      .message .ownerAddressesNotSorted⟩]

theorem Owner.judged_validate (owner : Owner) :
    Judged owner.conditions (owner.validate.mapError .message) := by
  rw [validate_eq_ite, conditions]
  split_ifs with quorate ordered
  · exact .next quorate (.next (ascending_iff_pairwise.mp ordered) .passed)
  · exact .next quorate (.rejected [] (mt ascending_iff_pairwise.mpr ordered))
  · exact .rejected _ quorate

/-! ## Requests -/

namespace ValidatorRegistration

/-- What a request is judged by, in this order. -/
def conditions (request : ValidatorRegistration) (settings : StakingSettings) : List Condition :=
  [⟨request.nodeId.hash ≠ .zero, .preflight .emptyNodeId⟩,
    ⟨request.blsPublicKey.length = 48,
      .preflight (.wrongBlsPublicKey request.blsPublicKey.length)⟩] ++
  request.remainingBalanceOwner.conditions ++
  request.disableOwner.conditions ++
  [⟨settings.minimumDelegationFeeBips.toNat ≤ request.delegationFeeBips.toNat ∧
        request.delegationFeeBips.toNat ≤ 10000,
      .preflight (.delegationFee request.delegationFeeBips settings.minimumDelegationFeeBips)⟩,
    ⟨settings.minimumStakeDuration.toNat ≤ request.minStakeDuration.toNat,
      .preflight (.stakeDuration request.minStakeDuration settings.minimumStakeDuration)⟩,
    ⟨settings.minimumStakeAmount.toNat ≤ request.stakeAmount.toNat ∧
        request.stakeAmount.toNat ≤ settings.maximumStakeAmount.toNat,
      .preflight (.stakeAmount request.stakeAmount settings.minimumStakeAmount
        settings.maximumStakeAmount)⟩,
    ⟨request.rewardRecipient ≠ .zero, .preflight .zeroRecipient⟩]

theorem judged_check
    (request : ValidatorRegistration)
    (settings : StakingSettings) :
    Judged (request.conditions settings) (request.check settings) := by
  have node : (!request.nodeId.hash.isZero) ↔ request.nodeId.hash ≠ .zero := by
    simp [← FixedBytes.isZero_iff]
  have key : (request.blsPublicKey.length == blsPublicKeyLength) ↔
      request.blsPublicKey.length = 48 := beq_iff_eq
  have fee : (settings.minimumDelegationFeeBips ≤ request.delegationFeeBips &&
        request.delegationFeeBips ≤ maximumDelegationFeeBips) ↔
      settings.minimumDelegationFeeBips.toNat ≤ request.delegationFeeBips.toNat ∧
        request.delegationFeeBips.toNat ≤ 10000 := by
    rw [Bool.and_eq_true, decide_eq_true_iff, decide_eq_true_iff, UInt16.le_iff_toNat_le,
      UInt16.le_iff_toNat_le]
    rfl
  have duration : decide (settings.minimumStakeDuration ≤ request.minStakeDuration) ↔
      settings.minimumStakeDuration.toNat ≤ request.minStakeDuration.toNat := by
    rw [decide_eq_true_iff, UInt64.le_iff_toNat_le]
  have stake : (settings.minimumStakeAmount ≤ request.stakeAmount &&
        request.stakeAmount ≤ settings.maximumStakeAmount) ↔
      settings.minimumStakeAmount.toNat ≤ request.stakeAmount.toNat ∧
        request.stakeAmount.toNat ≤ settings.maximumStakeAmount.toNat := by
    rw [Bool.and_eq_true, decide_eq_true_iff, decide_eq_true_iff, BitVec.le_def, BitVec.le_def]
  have recipient : (!request.rewardRecipient.isZero) ↔ request.rewardRecipient ≠ .zero := by
    simp [← FixedBytes.isZero_iff]
  have inTurn := (judged_ensure node .emptyNodeId).bind <|
    (judged_ensure key (.wrongBlsPublicKey request.blsPublicKey.length)).bind <|
    request.remainingBalanceOwner.judged_validate.bind <|
    request.disableOwner.judged_validate.bind <|
    (judged_ensure fee
      (.delegationFee request.delegationFeeBips settings.minimumDelegationFeeBips)).bind <|
    (judged_ensure duration
      (.stakeDuration request.minStakeDuration settings.minimumStakeDuration)).bind <|
    (judged_ensure stake (.stakeAmount request.stakeAmount settings.minimumStakeAmount
      settings.maximumStakeAmount)).bind <|
    judged_ensure recipient .zeroRecipient
  exact inTurn

/-- The period of an accepted request on a subnet. -/
def period (request : ValidatorRegistration) (subnet : SubnetId) (expiry weight : UInt64) :
    ValidationPeriod where
  subnetId := subnet
  nodeId := request.nodeId.bytes
  blsPublicKey := request.blsPublicKey
  registrationExpiry := expiry
  remainingBalanceOwner := request.remainingBalanceOwner
  disableOwner := request.disableOwner
  weight := weight

/-- A request is accepted if all conditions hold, and is rejected for the first one that does not.
The period of an accepted request can be written as a register message. It is read back from the
message as long as the addresses of each owner can be counted in the four bytes that the message has
for their number. -/
theorem accepts_what_can_be_packed
    (request : ValidatorRegistration)
    (settings : StakingSettings) :
    (request.check settings = .ok () ↔
        ∀ condition ∈ request.conditions settings, condition.holds) ∧
      (∀ error, request.check settings = .error error ↔
        ∃ before condition after, request.conditions settings = before ++ condition :: after ∧
          (∀ earlier ∈ before, earlier.holds) ∧ ¬ condition.holds ∧ error = condition.error) ∧
      (request.check settings = .ok () → ∀ subnet expiry weight,
        ∃ id packed, Message.packRegister (request.period subnet expiry weight) = .ok (id, packed) ∧
          (request.remainingBalanceOwner.Countable → request.disableOwner.Countable →
            Message.unpackRegister packed = .ok (request.period subnet expiry weight))) := by
  have judged := request.judged_check settings
  refine ⟨judged.eq_ok_iff, fun error => judged.eq_error_iff, ?_⟩
  intro accepted subnet expiry weight
  have sized : (request.period subnet expiry weight).blsPublicKey.length = blsPublicKeyLength :=
    judged.eq_ok_iff.mp accepted ⟨request.blsPublicKey.length = 48,
      .preflight (.wrongBlsPublicKey request.blsPublicKey.length)⟩ (by simp [conditions])
  have written := Message.packRegister_eq_ite (request.period subnet expiry weight)
  rw [if_pos sized] at written
  refine ⟨_, _, written, fun remaining disable => ?_⟩
  have nodeId : request.nodeId.bytes.length < UInt32.size := by
    rw [NodeId.bytes, FixedBytes.length_bytes]
    decide
  exact Message.unpackRegister_eq_ok_iff.mpr ⟨rfl, nodeId, sized, remaining, disable⟩

/-- Terms of a manager. -/
def sampleSettings : StakingSettings where
  manager := .ofNat 1
  minimumStakeAmount := 100
  maximumStakeAmount := 10000
  minimumStakeDuration := 3600
  minimumDelegationFeeBips := 100
  maximumStakeMultiplier := 4
  weightToValueFactor := 1
  rewardCalculator := .ofNat 2
  uptimeBlockchainId := .zero

/-- A request at the upper bounds for the fee and the stake. -/
def sampleRequest : ValidatorRegistration where
  nodeId := ⟨.ofNat 4⟩
  blsPublicKey := Bytes.zeros 48
  remainingBalanceOwner := ⟨2, [.ofNat 6, .ofNat 7]⟩
  disableOwner := ⟨0, []⟩
  delegationFeeBips := 10000
  minStakeDuration := 3600
  stakeAmount := 10000
  rewardRecipient := .ofNat 8

/-- The sample is accepted and its period is read back. With too high a stake and no recipient, it
is rejected for the stake. -/
theorem sample_accepted :
    sampleRequest.check sampleSettings = .ok () ∧
      (∃ id packed, Message.packRegister (sampleRequest.period .zero 1700000000 5) =
          .ok (id, packed) ∧
        Message.unpackRegister packed = .ok (sampleRequest.period .zero 1700000000 5)) ∧
      { sampleRequest with stakeAmount := 10001, rewardRecipient := .zero }.check sampleSettings =
        .error (.preflight (.stakeAmount 10001 100 10000)) := by
  have accepted : sampleRequest.check sampleSettings = .ok () := by rfl
  obtain ⟨_, _, packable⟩ := accepts_what_can_be_packed sampleRequest sampleSettings
  obtain ⟨id, packed, written, readBack⟩ := packable accepted .zero 1700000000 5
  exact ⟨accepted, ⟨id, packed, written, readBack (by decide) (by decide)⟩, by rfl⟩

end ValidatorRegistration
end Valset
