import Valset.Proofs.Message.Conversion
import Valset.Proofs.Message.RoundTrip

/-!
# Messages of another length

The packed forms of periods and of conversion data are sequences of fields, each of which is taken
as a whole or not at all. A packed form that was cut is therefore refused at the first field that
does not fit, and one that goes on is refused behind the last field. In both cases the error names
the length that was found and the one that was needed.
-/

namespace Valset
namespace Packed

variable {α β : Type}

/-! ## Fields that do not fit -/

/-- Of fields with the given bytes, those in front of one fit into an input of a size, and that one,
which ends at `stop`, does not. -/
def FirstUnfit (pieces : List Bytes) (size stop : Nat) : Prop :=
  ∃ before piece after, pieces = before ++ piece :: after ∧ before.flatten.length ≤ size ∧
    size < stop ∧ stop = before.flatten.length + piece.length

/-- Further pieces behind the first one that does not fit make no difference. -/
theorem FirstUnfit.append_right
    {front : List Bytes}
    {size stop : Nat}
    (unfit : FirstUnfit front size stop)
    (back : List Bytes) :
    FirstUnfit (front ++ back) size stop := by
  obtain ⟨before, piece, after, rfl, rest⟩ := unfit
  exact ⟨before, piece, after ++ back, by simp, rest⟩

/-- Pieces in front of the first one that does not fit move it further on. -/
theorem FirstUnfit.append_left
    {back : List Bytes}
    {size stop : Nat}
    (unfit : FirstUnfit back size stop)
    (front : List Bytes) :
    FirstUnfit (front ++ back) (front.flatten.length + size) (front.flatten.length + stop) := by
  obtain ⟨before, piece, after, rfl, fits, exceeds, rfl⟩ := unfit
  refine ⟨front ++ before, piece, after, by simp, ?_, by omega, ?_⟩ <;>
    rw [List.flatten_append, List.length_append] <;> omega

theorem FirstUnfit.le_length
    {pieces : List Bytes}
    {size stop : Nat}
    (unfit : FirstUnfit pieces size stop) :
    stop ≤ pieces.flatten.length := by
  obtain ⟨before, piece, after, rfl, _, _, rfl⟩ := unfit
  rw [List.flatten_append, List.flatten_cons, List.length_append, List.length_append]
  omega

/-- There is one first piece that does not fit. -/
theorem FirstUnfit.unique
    {pieces : List Bytes}
    {size stop other : Nat}
    (unfit : FirstUnfit pieces size stop)
    (unfitOther : FirstUnfit pieces size other) :
    stop = other := by
  -- A field that stands behind one that does not fit begins too late to be the first such field.
  have notBehind {front later after afterNext : List Bytes} {piece next : Bytes}
      (same : piece :: after = later ++ next :: afterNext)
      (exceeds : size < front.flatten.length + piece.length)
      (fits : (front ++ later).flatten.length ≤ size) : later = [] := by
    cases later with
    | nil => rfl
    | cons first later =>
        obtain ⟨rfl, _⟩ := List.cons.inj same
        rw [List.flatten_append, List.flatten_cons, List.length_append, List.length_append] at fits
        omega
  obtain ⟨before, piece, after, rfl, fits, exceeds, rfl⟩ := unfit
  obtain ⟨beforeOther, pieceOther, afterOther, same, fitsOther, exceedsOther, rfl⟩ := unfitOther
  rcases List.append_eq_append_iff.mp same with ⟨later, rfl, behind⟩ | ⟨later, rfl, behind⟩
  · obtain rfl := notBehind behind exceeds fitsOther
    rw [(List.cons.inj behind).1, List.append_nil]
  · obtain rfl := notBehind behind exceedsOther fits
    rw [(List.cons.inj behind).1, List.append_nil]

/-! ## Readings that take fields one by one -/

/-- A reading takes a value from fields with the given bytes. When the bytes are cut anywhere, it
fails on the first field that does not fit. -/
structure TakesApart (field : Reading α) (pieces : List Bytes) (value : α) : Prop where
  reads : Reads field pieces.flatten value
  stops (before part : Bytes) {rest : Bytes} (cut : pieces.flatten = part ++ rest)
    (nonempty : rest ≠ []) :
    ∃ stop later, FirstUnfit pieces part.length stop ∧
      readFrom field ⟨before ++ part, before.length⟩ =
        (.error (.ofLengths (before ++ part).length (before.length + stop)), later)

namespace TakesApart

/-- Nothing is taken where a value is given. -/
theorem pure (value : α) : TakesApart (Pure.pure value) [] value where
  reads := .pure value
  stops _ _ _ cut nonempty := absurd (List.append_eq_nil_iff.mp cut.symm).2 nonempty

/-- Fields one after the other are taken piece by piece. -/
theorem bind
    {field : Reading α}
    {next : α → Reading β}
    {front back : List Bytes}
    {value : α}
    {result : β}
    (first : TakesApart field front value)
    (second : TakesApart (next value) back result) :
    TakesApart (field >>= next) (front ++ back) result where
  reads := by
    rw [List.flatten_append]
    exact first.reads.bind second.reads
  stops before part rest cut nonempty := by
    rw [List.flatten_append] at cut
    by_cases inFront : part.length < front.flatten.length
    · -- The cut is in front of the second reading, which is not reached.
      obtain ⟨missing, split⟩ : part <+: front.flatten :=
        List.prefix_of_prefix_length_le ⟨rest, cut.symm⟩ (List.prefix_append _ _)
          (Nat.le_of_lt inFront)
      have some : missing ≠ [] := by
        rintro rfl
        rw [← split, List.append_nil] at inFront
        exact Nat.lt_irrefl _ inFront
      obtain ⟨stop, later, unfit, failed⟩ := first.stops before part split.symm some
      exact ⟨stop, later, unfit.append_right back, by rw [readFrom_bind, failed]⟩
    · obtain ⟨part, rfl⟩ : front.flatten <+: part :=
        List.prefix_of_prefix_length_le (List.prefix_append _ _) ⟨rest, cut.symm⟩
          (Nat.le_of_not_lt inFront)
      rw [List.append_assoc, List.append_cancel_left_eq] at cut
      obtain ⟨stop, later, unfit, failed⟩ :=
        second.stops (before ++ front.flatten) part cut nonempty
      refine ⟨front.flatten.length + stop, later, ?_, ?_⟩
      · rw [List.length_append]
        exact unfit.append_left front
      · have reached : (before ++ front.flatten).length + stop =
            before.length + (front.flatten.length + stop) := by
          rw [List.length_append, Nat.add_assoc]
        rw [readFrom_bind, first.reads before part, ← List.append_assoc, ← reached]
        exact failed

/-- A single field. -/
theorem map_take
    {change : Bytes → α}
    {size : Nat}
    {bytes : Bytes}
    {value : α}
    (reads : Reads (change <$> take size) bytes value) :
    TakesApart (change <$> take size) [bytes] value where
  reads := by simpa using reads
  stops before part rest cut nonempty := by
    obtain ⟨_, taken, -⟩ := reads_map_iff.mp reads
    obtain ⟨rfl, rfl⟩ := reads_take_iff.mp taken
    rw [List.flatten_singleton] at cut
    have short : part.length < bytes.length := by
      rw [cut, List.length_append, Nat.lt_add_right_iff_pos]
      exact List.length_pos_iff.mpr nonempty
    refine ⟨bytes.length, ⟨before ++ part, before.length⟩,
      ⟨[], bytes, [], rfl, Nat.zero_le _, short, (Nat.zero_add _).symm⟩, ?_⟩
    have exceeds : (before ++ part).length < before.length + bytes.length := by
      rw [List.length_append]
      omega
    rw [readFrom_map, readFrom_take, if_pos exceeds]
    rfl

/-- Bytes are taken as one piece. -/
theorem take (bytes : Bytes) : TakesApart (take bytes.length) [bytes] bytes := by
  have single : TakesApart (id <$> Packed.take bytes.length) [bytes] bytes :=
    map_take (reads_map_iff.mpr ⟨bytes, .take bytes, rfl⟩)
  rwa [id_map] at single

/-- Bytes of a fixed length are taken as one piece. -/
theorem takeFixed
    {width : Nat}
    (value : FixedBytes width) :
    TakesApart (takeFixed width) [value.bytes] value :=
  map_take (reads_takeFixed_iff.mpr rfl)

theorem takeU16 (value : UInt16) : TakesApart takeU16 [u16 value] value :=
  map_take (reads_takeU16_iff.mpr rfl)

theorem takeU32 (value : UInt32) : TakesApart takeU32 [u32 value] value :=
  map_take (reads_takeU32_iff.mpr rfl)

theorem takeU64 (value : UInt64) : TakesApart takeU64 [u64 value] value :=
  map_take (reads_takeU64_iff.mpr rfl)

/-- Bytes with their number in front are taken as two pieces. -/
theorem takeCounted
    {value : Bytes}
    (fits : value.length < UInt32.size) :
    TakesApart takeCounted [count value, value] value := by
  have body : TakesApart (Packed.take (UInt32.ofNat value.length).toNat) [value] value := by
    rw [toNat_ofNat_length fits]
    exact take value
  exact (takeU32 _).bind body

/-- Items are taken one after the other, each with its pieces. -/
theorem takeMany
    {field : Reading α}
    {pieces : α → List Bytes}
    {items : List α}
    (each : ∀ item ∈ items, TakesApart field (pieces item) item) :
    TakesApart (takeMany field items.length) (items.flatMap pieces) items := by
  induction items with
  | nil => exact .pure []
  | cons item items inductionHypothesis =>
      obtain ⟨first, rest⟩ := List.forall_mem_cons.mp each
      rw [List.flatMap_cons, ← List.append_nil (items.flatMap pieces)]
      exact first.bind ((inductionHypothesis rest).bind (.pure (item :: items)))

/-- A list is taken as its number and the pieces of its items. -/
theorem takeList
    {field : Reading α}
    {pieces : α → List Bytes}
    {items : List α}
    (fits : items.length < UInt32.size)
    (each : ∀ item ∈ items, TakesApart field (pieces item) item) :
    TakesApart (takeList field) (count items :: items.flatMap pieces) items := by
  have body : TakesApart (Packed.takeMany field (UInt32.ofNat items.length).toNat)
      (items.flatMap pieces) items := by
    rw [toNat_ofNat_length fits]
    exact takeMany each
  exact (takeU32 _).bind body

end TakesApart

/-! ## Whole inputs -/

section Whole

variable
  {field : Reading α}
  {value : α}

/-- Input that is cut short is refused, with the end of the first piece that does not fit. -/
theorem read_finish_of_cut
    {pieces : List Bytes}
    (apart : TakesApart field pieces value)
    {part rest : Bytes}
    (cut : pieces.flatten = part ++ rest)
    (nonempty : rest ≠ []) :
    ∃ stop, FirstUnfit pieces part.length stop ∧
      read (do
        let found ← field
        finish
        return found) part = .error (.ofLengths part.length stop) := by
  obtain ⟨stop, later, unfit, failed⟩ := apart.stops [] part cut nonempty
  rw [List.nil_append, List.length_nil, Nat.zero_add] at failed
  refine ⟨stop, unfit, ?_⟩
  change (readFrom (field >>= _) ⟨part, 0⟩).1 = _
  rw [readFrom_bind, failed]

/-- Input that goes on is refused, with the length that was read. -/
theorem read_finish_of_longer
    {bytes extra : Bytes}
    (reads : Reads field bytes value)
    (nonempty : extra ≠ []) :
    read (do
      let found ← field
      finish
      return found) (bytes ++ extra) =
      .error (.ofLengths (bytes.length + extra.length) bytes.length) := by
  have taken := reads [] extra
  have remains : bytes.length ≠ (bytes ++ extra).length := by
    have some := List.length_pos_iff.mpr nonempty
    rw [List.length_append]
    omega
  change (readFrom (field >>= fun found => finish >>= _) ⟨bytes ++ extra, 0⟩).1 = _
  rw [readFrom_bind]
  simp only [List.nil_append, List.length_nil] at taken
  rw [taken]
  dsimp only
  rw [readFrom_bind, readFrom_finish, if_pos remains, List.length_append]

end Whole

/-- An input is refused for its length, with the length that it has and the one that it needs. -/
def RefusedForLength (result : Except MessageError α) (actual expected : Nat) : Prop :=
  ∃ found needed : UInt32, result = .error (.invalidMessageLength found needed) ∧
    found.toNat = actual ∧ needed.toNat = expected

theorem RefusedForLength.of_lengths
    {result : Except MessageError α}
    {actual expected : Nat}
    (refused : result = .error (.ofLengths actual expected))
    (fits : actual < UInt32.size)
    (fitsExpected : expected < UInt32.size) :
    RefusedForLength result actual expected :=
  ⟨_, _, refused, UInt32.toNat_ofNat_of_lt' fits, UInt32.toNat_ofNat_of_lt' fitsExpected⟩

/-- What consists of the given fields is refused when it is cut, at the first field that does not
fit, and when it goes on, behind the last field. -/
def RefusesOtherLengths (unpack : Bytes → Except MessageError α) (pieces : List Bytes) : Prop :=
  (∀ size < pieces.flatten.length, ∃ stop, FirstUnfit pieces size stop ∧ size < stop ∧
      stop ≤ pieces.flatten.length ∧
      RefusedForLength (unpack (pieces.flatten.take size)) size stop) ∧
    ∀ extra : Bytes, extra ≠ [] → pieces.flatten.length + extra.length < UInt32.size →
      RefusedForLength (unpack (pieces.flatten ++ extra))
        (pieces.flatten.length + extra.length) pieces.flatten.length

/-- A reading that takes fields one by one, up to the end of the input, refuses other lengths. -/
theorem TakesApart.refusesOtherLengths
    {field : Reading α}
    {pieces : List Bytes}
    {value : α}
    (apart : TakesApart field pieces value)
    (short : pieces.flatten.length < UInt32.size) :
    RefusesOtherLengths (read (do
      let found ← field
      finish
      return found)) pieces := by
  constructor
  · intro size less
    have cut := (List.take_append_drop size pieces.flatten).symm
    have nonempty : pieces.flatten.drop size ≠ [] := by
      rw [ne_eq, List.drop_eq_nil_iff]
      omega
    obtain ⟨stop, unfit, refused⟩ := read_finish_of_cut apart cut nonempty
    rw [List.length_take, Nat.min_eq_left (Nat.le_of_lt less)] at unfit refused
    have inside := unfit.le_length
    have exceeds : size < stop := by
      obtain ⟨_, _, _, _, _, exceeds, _⟩ := unfit
      exact exceeds
    exact ⟨stop, unfit, exceeds, inside, .of_lengths refused (by omega) (by omega)⟩
  · intro extra nonempty fits
    exact .of_lengths (read_finish_of_longer apart.reads nonempty) fits short

end Packed

open Packed

/-! ## The fields of messages -/

namespace Owner

/-- The bytes of the fields of an owner. -/
def pieces (owner : Owner) : List Bytes :=
  [u32 owner.threshold, count owner.addresses] ++ owner.addresses.map (·.bytes)

/-- The pieces of an owner are its packed form. -/
theorem flatten_pieces (owner : Owner) : owner.pieces.flatten = owner.pack := by
  simp [pieces, pack, List.flatMap]

/-- A packed owner has 20 bytes for each address behind its threshold and their number. -/
theorem length_pack (owner : Owner) : owner.pack.length = 8 + 20 * owner.addresses.length := by
  have addresses : (owner.addresses.flatMap (·.bytes)).length = 20 * owner.addresses.length := by
    have sized : ∀ piece ∈ owner.addresses.map (·.bytes), piece.length = 20 := by
      intro piece present
      obtain ⟨address, -, rfl⟩ := List.mem_map.mp present
      exact address.length_bytes
    rw [List.flatMap, length_flatten_of_forall 20 sized, List.length_map]
  rw [pack, List.length_append, List.length_append, length_u32, count, length_u32, addresses]

/-- An owner is taken piece by piece. -/
theorem takesApart_unpack
    {owner : Owner}
    (countable : owner.Countable) :
    TakesApart unpack owner.pieces owner := by
  have addresses : TakesApart (takeList (takeFixed 20))
      (count owner.addresses :: owner.addresses.map (·.bytes)) owner.addresses := by
    rw [List.map_eq_flatMap]
    exact .takeList countable fun address _ => .takeFixed address
  have inTurn : owner.pieces = [u32 owner.threshold] ++
      ((count owner.addresses :: owner.addresses.map (·.bytes)) ++ []) := by
    simp [pieces]
  rw [inTurn]
  exact .bind (.takeU32 owner.threshold) (.bind addresses (.pure owner))

end Owner

namespace ValidationPeriod

/-- The bytes of the fields of a period. -/
def pieces (period : ValidationPeriod) : List Bytes :=
  [period.subnetId.hash.bytes, count period.nodeId, period.nodeId, period.blsPublicKey,
    u64 period.registrationExpiry] ++ period.remainingBalanceOwner.pieces ++
    period.disableOwner.pieces ++ [u64 period.weight]

/-- The pieces of a validation period are its packed form. -/
theorem flatten_pieces (period : ValidationPeriod) : period.pieces.flatten = period.pack := by
  simp [pieces, pack, counted, Owner.flatten_pieces]

/-- A packed period that is short enough has lengths that fit into four bytes. -/
theorem packable_of_short
    {period : ValidationPeriod}
    (sized : period.blsPublicKey.length = blsPublicKeyLength)
    (short : period.pack.length < UInt32.size) :
    period.Packable := by
  simp only [pack, counted, List.length_append, Owner.length_pack] at short
  refine ⟨?_, sized, ?_, ?_⟩
  · omega
  · unfold Owner.Countable
    omega
  · unfold Owner.Countable
    omega

/-- A validation period is taken piece by piece. -/
theorem takesApart_unpack
    {period : ValidationPeriod}
    (packable : period.Packable) :
    TakesApart unpack period.pieces period := by
  have key : TakesApart (take blsPublicKeyLength) [period.blsPublicKey] period.blsPublicKey := by
    rw [← packable.blsPublicKey]
    exact .take period.blsPublicKey
  have remaining := Owner.takesApart_unpack packable.remainingBalanceOwner
  have disable := Owner.takesApart_unpack packable.disableOwner
  have inTurn : period.pieces = [period.subnetId.hash.bytes] ++
      ([count period.nodeId, period.nodeId] ++ ([period.blsPublicKey] ++
        ([u64 period.registrationExpiry] ++ (period.remainingBalanceOwner.pieces ++
          (period.disableOwner.pieces ++ ([u64 period.weight] ++ [])))))) := by
    simp [pieces]
  rw [inTurn]
  exact .bind (.takeFixed period.subnetId.hash) <| .bind (.takeCounted packable.nodeId) <|
    .bind key <| .bind (.takeU64 period.registrationExpiry) <| .bind remaining <| .bind disable <|
      .bind (.takeU64 period.weight) (.pure period)

end ValidationPeriod

namespace InitialValidator

/-- The bytes of the fields of a validator. -/
def pieces (validator : InitialValidator) : List Bytes :=
  [count validator.nodeId, validator.nodeId, validator.blsPublicKey, u64 validator.weight]

/-- The pieces of an initial validator are its packed fields. -/
theorem flatten_pieces (validator : InitialValidator) :
    validator.pieces.flatten = validator.packedFields := by
  simp [pieces, packedFields, counted]

/-- An initial validator is taken piece by piece. -/
theorem takesApart_unpack
    {validator : InitialValidator}
    (keyed : validator.Keyed)
    (countable : validator.Countable) :
    TakesApart unpack validator.pieces validator := by
  have key : TakesApart (take blsPublicKeyLength) [validator.blsPublicKey]
      validator.blsPublicKey := by
    have sized : validator.blsPublicKey.length = blsPublicKeyLength := keyed
    rw [← sized]
    exact .take validator.blsPublicKey
  have inTurn : validator.pieces = [count validator.nodeId, validator.nodeId] ++
      ([validator.blsPublicKey] ++ ([u64 validator.weight] ++ [])) := rfl
  rw [inTurn]
  exact .bind (.takeCounted countable) <| .bind key <|
    .bind (.takeU64 validator.weight) (.pure validator)

end InitialValidator

namespace ConversionData

/-- The bytes of the fields of conversion data. -/
def pieces (data : ConversionData) : List Bytes :=
  [u16 codecId, data.subnetId.hash.bytes, data.validatorManagerBlockchainId.hash.bytes,
    u32 addressLength, data.validatorManagerAddress.bytes, count data.initialValidators] ++
    data.initialValidators.flatMap InitialValidator.pieces

/-- The pieces of conversion data are its packed fields. -/
theorem flatten_pieces (data : ConversionData) : data.pieces.flatten = data.packedFields := by
  have each (validators : List InitialValidator) :
      (validators.flatMap InitialValidator.pieces).flatten =
        validators.flatMap InitialValidator.packedFields := by
    induction validators with
    | nil => rfl
    | cons validator validators inductionHypothesis =>
        rw [List.flatMap_cons, List.flatten_append, inductionHypothesis, List.flatMap_cons,
          InitialValidator.flatten_pieces]
  simp [pieces, packedFields, each]

/-- Packed conversion data that are short enough have lengths that fit into four bytes. -/
theorem countable_of_short
    {data : ConversionData}
    (short : data.packedFields.length < UInt32.size) :
    data.Countable := by
  have counted (validators : List InitialValidator) :
      validators.length ≤ (validators.flatMap InitialValidator.packedFields).length ∧
        ∀ validator ∈ validators, validator.nodeId.length ≤
          (validators.flatMap InitialValidator.packedFields).length := by
    induction validators with
    | nil => simp
    | cons validator validators inductionHypothesis =>
        obtain ⟨few, nodeIds⟩ := inductionHypothesis
        have longer : validator.nodeId.length + 1 ≤ validator.packedFields.length := by
          simp only [InitialValidator.packedFields, Packed.counted, count, List.length_append,
            length_u32, length_u64]
          omega
        simp only [List.flatMap_cons, List.length_append, List.length_cons, List.forall_mem_cons]
        refine ⟨by omega, by omega, fun other present => ?_⟩
        have := nodeIds other present
        omega
  obtain ⟨few, nodeIds⟩ := counted data.initialValidators
  simp only [packedFields, List.length_append] at short
  refine ⟨by omega, fun validator present => ?_⟩
  exact Nat.lt_of_le_of_lt (nodeIds validator present) (by omega)

theorem takesApart_takeCodecId : TakesApart takeCodecId [u16 codecId] () :=
  .bind (.takeU16 codecId) (.pure ())

theorem takesApart_takeAddressLength : TakesApart takeAddressLength [u32 addressLength] () :=
  .bind (.takeU32 addressLength) (.pure ())

/-- The fields of conversion data are taken piece by piece. -/
theorem takesApart_body
    {data : ConversionData}
    (keyed : data.Keyed)
    (countable : data.Countable) :
    TakesApart body data.pieces data := by
  have validators : TakesApart (takeList InitialValidator.unpack)
      (count data.initialValidators :: data.initialValidators.flatMap InitialValidator.pieces)
      data.initialValidators :=
    .takeList countable.validators fun validator present =>
      InitialValidator.takesApart_unpack (keyed validator present)
        (countable.nodeIds validator present)
  have inTurn : data.pieces = [u16 codecId] ++ ([data.subnetId.hash.bytes] ++
      ([data.validatorManagerBlockchainId.hash.bytes] ++ ([u32 addressLength] ++
        ([data.validatorManagerAddress.bytes] ++ ((count data.initialValidators ::
          data.initialValidators.flatMap InitialValidator.pieces) ++ []))))) := by
    simp [pieces]
  rw [inTurn]
  exact .bind takesApart_takeCodecId <| .bind (.takeFixed data.subnetId.hash) <|
    .bind (.takeFixed data.validatorManagerBlockchainId.hash) <|
    .bind takesApart_takeAddressLength <| .bind (.takeFixed data.validatorManagerAddress) <|
    .bind validators (.pure data)

end ConversionData

namespace Message

/-- A header is taken as its codec and its type. -/
theorem takesApart_takeHeader (type : UInt32) :
    TakesApart (takeHeader type) [u16 codecId, u32 type] () := by
  have typed : TakesApart (takeU32 >>= fun found =>
      if found ≠ type then throw .invalidMessageType else pure ()) [u32 type] () := by
    refine .bind (.takeU32 type) ?_
    rw [if_neg (not_not.mpr rfl)]
    exact .pure ()
  exact .bind ConversionData.takesApart_takeCodecId typed

/-- The bytes of the fields of a register message. -/
def registerPieces (period : ValidationPeriod) : List Bytes :=
  [u16 codecId, u32 registerType] ++ period.pieces

theorem flatten_registerPieces (period : ValidationPeriod) :
    (registerPieces period).flatten = header registerType ++ period.pack := by
  simp [registerPieces, header, ValidationPeriod.flatten_pieces]

/-- A register message is taken piece by piece. -/
theorem takesApart_register
    {period : ValidationPeriod}
    (packable : period.Packable) :
    TakesApart (do
      takeHeader registerType
      ValidationPeriod.unpack) (registerPieces period) period :=
  (takesApart_takeHeader registerType).bind (ValidationPeriod.takesApart_unpack packable)

/-- A register message that is cut or goes on is refused for its length, and so are packed
conversion data: a cut at the first field that does not fit, named by its end, and more bytes behind
the last field, named by the length without them. -/
theorem other_lengths_refused :
    (∀ period id packed, packRegister period = .ok (id, packed) → packed.length < UInt32.size →
      packed = (registerPieces period).flatten ∧
        RefusesOtherLengths unpackRegister (registerPieces period)) ∧
      ∀ data packed, ConversionData.pack data = .ok packed → packed.length < UInt32.size →
        packed = data.pieces.flatten ∧
          RefusesOtherLengths ConversionData.unpack data.pieces := by
  constructor
  · intro period id packed written short
    rw [packRegister_eq_ite] at written
    split at written
    · next sized =>
      obtain ⟨-, rfl⟩ := Prod.mk.inj (Except.ok.inj written)
      rw [← flatten_registerPieces] at short ⊢
      have shortFields : period.pack.length < UInt32.size := by
        rw [flatten_registerPieces, List.length_append] at short
        omega
      have packable := ValidationPeriod.packable_of_short sized shortFields
      rw [unpackRegister_eq_read_finish]
      exact ⟨rfl, (takesApart_register packable).refusesOtherLengths short⟩
    · cases written
  · intro data packed written short
    obtain ⟨keyed, rfl⟩ := ConversionData.pack_eq_ok_iff.mp written
    have countable := ConversionData.countable_of_short short
    rw [← ConversionData.flatten_pieces] at short ⊢
    have unpack_eq : ConversionData.unpack = read ConversionData.fields := rfl
    rw [unpack_eq, ConversionData.fields_eq_body_finish]
    exact ⟨rfl, (ConversionData.takesApart_body keyed countable).refusesOtherLengths short⟩

/-- The sample register message, cut inside the expiry, and sample conversion data, cut inside the
count of the second node id; both with a byte too many. -/
theorem samples_refused_for_length :
    (∃ id packed, packRegister samplePeriod = .ok (id, packed) ∧ packed.length < UInt32.size ∧
        RefusedForLength (unpackRegister (packed.take 93)) 93 100 ∧
        RefusedForLength (unpackRegister (packed ++ [0])) 165 164) ∧
      ∃ packed, ConversionData.sample.pack = .ok packed ∧ packed.length < UInt32.size ∧
        RefusedForLength (ConversionData.unpack (packed.take 157)) 157 160 ∧
        RefusedForLength (ConversionData.unpack (packed ++ [0])) 217 216 := by
  obtain ⟨registers, conversions⟩ := other_lengths_refused
  constructor
  · have written := packRegister_eq_ite samplePeriod
    rw [if_pos (by decide), ← flatten_registerPieces] at written
    have size : (registerPieces samplePeriod).flatten.length = 164 := by decide +kernel
    have short : (registerPieces samplePeriod).flatten.length < UInt32.size := by
      rw [size]
      decide
    obtain ⟨-, cut, longer⟩ := registers _ _ _ written short
    rw [size] at cut longer
    obtain ⟨stop, unfit, _, _, refused⟩ := cut 93 (by decide)
    have inExpiry : FirstUnfit (registerPieces samplePeriod) 93 100 :=
      ⟨(registerPieces samplePeriod).take 6, u64 1700000000, (registerPieces samplePeriod).drop 7,
        by decide +kernel, by decide +kernel, by decide, by decide +kernel⟩
    rw [unfit.unique inExpiry] at refused
    exact ⟨_, _, written, short, refused, longer [0] (by decide) (by decide)⟩
  · have written : ConversionData.sample.pack = .ok ConversionData.sample.packedFields :=
      ConversionData.pack_eq_ok_iff.mpr ⟨by decide, rfl⟩
    rw [← ConversionData.flatten_pieces] at written
    have size : ConversionData.sample.pieces.flatten.length = 216 := by decide +kernel
    have short : ConversionData.sample.pieces.flatten.length < UInt32.size := by
      rw [size]
      decide
    obtain ⟨-, cut, longer⟩ := conversions _ _ written short
    rw [size] at cut longer
    obtain ⟨stop, unfit, _, _, refused⟩ := cut 157 (by decide)
    have inCount : FirstUnfit ConversionData.sample.pieces 157 160 :=
      ⟨ConversionData.sample.pieces.take 10, u32 0, ConversionData.sample.pieces.drop 11,
        by decide +kernel, by decide +kernel, by decide, by decide +kernel⟩
    rw [unfit.unique inCount] at refused
    exact ⟨_, written, short, refused, longer [0] (by decide) (by decide)⟩

end Message
end Valset
