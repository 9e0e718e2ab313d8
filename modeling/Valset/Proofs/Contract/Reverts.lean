import Valset.Error
import Valset.Proofs.Contract.Errors

/-!
# Reverts are recognised

Each error that a contract declares is found in the data of its reverts, whichever of the sets of
errors it belongs to, and the text that is shown tells the error and its values. Data behind no
known selector is shown byte by byte.
-/

namespace Valset

namespace Revert

open ContractErrorKind

/-! ## Reason texts -/

/-- Data that does not begin with four zero bytes holds no offset. -/
theorem take_eq_zeros_of_sizeAt
    {data : Bytes}
    {size : Nat}
    (found : Abi.sizeAt data 0 = .ok size) :
    data.take 4 = Bytes.zeros 4 := by
  obtain ⟨word, sliced, bounded⟩ := bind_eq_ok_iff.mp found
  have sized := Abi.length_of_slice sliced
  have small : Bytes.toNat word < UInt32.size := by
    by_contra large
    rw [if_neg large] at bounded
    cases bounded
  have front : word = data.take 32 := by
    rw [Abi.wordAt, Abi.slice] at sliced
    split at sliced
    · cases sliced
    · exact (Except.ok.inj sliced).symm
  have narrow : UInt32.size ≤ 256 ^ (word.length - 4) := by
    rw [sized]
    decide
  have zeros := @Bytes.take_eq_zeros_of_toNat_lt word 4 (by omega) (Nat.lt_of_lt_of_le small narrow)
  rwa [front, List.take_take] at zeros

/-- Data that does not begin with four zero bytes holds no reason text. -/
theorem reason?_eq_none
    {data : Bytes}
    (marked : data.take 4 ≠ Bytes.zeros 4) :
    reason? data = none := by
  have undecoded : ∀ values, Abi.decode [.string] data ≠ .ok values := by
    intro values decoded
    rw [Abi.decode] at decoded
    split at decoded
    · cases decoded
    · obtain ⟨_, decodedValues, -⟩ := map_eq_ok_iff.mp decoded
      obtain ⟨_, decodedValue, -⟩ := bind_eq_ok_iff.mp decodedValues
      obtain ⟨_, decodedBytes, -⟩ := bind_eq_ok_iff.mp decodedValue
      obtain ⟨_, found, -⟩ := bind_eq_ok_iff.mp decodedBytes
      exact marked (take_eq_zeros_of_sizeAt found)
  rw [reason?]
  split
  · next text decoded => exact absurd decoded (undecoded _)
  · rfl

/-! ## Errors in sets -/

section Sets

variable
  {kinds : List ContractErrorKind}
  {kind : ContractErrorKind}
  {values : List AbiValue}
  {data : Bytes}

theorem ofKind?_selector
    (decoded : Abi.decode kind.types data = .ok values) :
    ofKind? kind (kind.selector ++ data) = some (.error kind values) := by
  rw [ofKind?, take_selector_append, if_pos rfl, drop_selector_append, decoded]

/-- A set of errors says nothing about data behind a selector that it does not know. -/
theorem decodeIn?_eq_none
    (unknown : data.length < 4 ∨
      data.take 4 ≠ reasonSelector ∧ ∀ kind ∈ kinds, data.take 4 ≠ kind.selector) :
    decodeIn? kinds data = none := by
  rw [decodeIn?]
  rcases unknown with short | ⟨noReason, noError⟩
  · rw [if_pos short]
  · have unmatched : kinds.any (·.selector == data.take 4) = false := by
      refine List.any_eq_false.mpr fun kind member => ?_
      simpa using (noError kind member).symm
    simp [noReason, unmatched]

theorem ofKind?_eq_none
    (differs : kind.selector ≠ data.take 4) :
    ofKind? kind data = none :=
  if_neg differs.symm

/-- Errors with other selectors are passed over. -/
theorem findSome?_ofKind?_selector
    (member : kind ∈ kinds)
    (only : ∀ other ∈ kinds, kind.selector = other.selector → kind = other)
    (decoded : Abi.decode kind.types data = .ok values) :
    kinds.findSome? (ofKind? · (kind.selector ++ data)) = some (.error kind values) := by
  induction kinds with
  | nil => cases member
  | cons first rest inductionHypothesis =>
      obtain ⟨onlyFirst, onlyRest⟩ := List.forall_mem_cons.mp only
      by_cases same : kind.selector = first.selector
      · obtain rfl := onlyFirst same
        rw [List.findSome?_cons, ofKind?_selector decoded]
      · have passed : ofKind? first (kind.selector ++ data) = none := by
          refine ofKind?_eq_none fun found => same ?_
          rw [found, take_selector_append]
        rw [List.findSome?_cons, passed]
        have behind := (List.mem_cons.mp member).resolve_left (same <| congrArg selector ·)
        exact inductionHypothesis behind onlyRest

/-- An error is found in a set in which it is the only one with its selector. -/
theorem decodeIn?_selector
    (member : kind ∈ kinds)
    (only : ∀ other ∈ kinds, kind.selector = other.selector → kind = other)
    (marked : kind.selector ≠ Bytes.zeros 4)
    (decoded : Abi.decode kind.types data = .ok values) :
    decodeIn? kinds (kind.selector ++ data) = some (.error kind values) := by
  have known : kinds.any (·.selector == kind.selector) = true :=
    List.any_eq_true.mpr ⟨kind, member, by simp⟩
  have found := findSome?_ofKind?_selector member only decoded
  have noReason : reason? (kind.selector ++ data) = none := reason?_eq_none (by simpa using marked)
  rw [decodeIn?, if_neg (by simp)]
  simp only [take_selector_append, known, or_true, if_true]
  rw [ofData?, noReason, found]
  rfl

end Sets

/-! ## Declared errors -/

section Declared

variable
  {kind other : ContractErrorKind}
  {values others : List AbiValue}
  {data : Bytes}

theorem decode_encode_of_declared
    (known : kind ∈ recognised)
    (admits : AbiType.AdmitsAll kind.types values) :
    Abi.decode kind.types (Abi.encode values) = .ok values := by
  refine Abi.decode_encode_of_admits admits fun dynamic => ?_
  have fixed := AbiType.anyDynamic_eq_false_of_isWord (isWord_of_mem_recognised kind known)
  exact absurd dynamic (Bool.eq_false_iff.mp fixed)

/-- A declared error is recognised, whichever of the sets knows it. -/
theorem decode?_of_declared
    (declared : kind.Declared)
    (admits : AbiType.AdmitsAll kind.types values) :
    decode? (kind.selector ++ Abi.encode values) = some (.error kind values) := by
  have known := declared_iff.mp declared
  have decoded := decode_encode_of_declared known admits
  have only (kinds : List ContractErrorKind) (inside : ∀ other ∈ kinds, other ∈ recognised) :
      ∀ other ∈ kinds, kind.selector = other.selector → kind = other :=
    fun other member => selector_injective known (inside other member)
  rw [decode?]
  by_cases here : kind ∈ erc20
  · rw [decodeIn?_selector here (only erc20 fun _ => List.mem_append_left _)
      (selector_ne_zeros known) decoded]
    rfl
  · -- The first set knows no selector of an error of the library, so the second one is asked.
    have there := (List.mem_append.mp known).resolve_left here
    rw [decodeIn?_eq_none (.inr ⟨?_, ?_⟩), decodeIn?_selector there
      (only messageLibrary fun _ => List.mem_append_right _) (selector_ne_zeros known) decoded]
    · rfl
    · rw [take_selector_append]
      exact selector_ne_reasonSelector known
    · intro other member same
      rw [take_selector_append] at same
      exact here (only erc20 (fun _ => List.mem_append_left _) other member same ▸ member)

/-- Data behind no known selector says nothing. -/
theorem decode?_eq_none
    (unknown : data.length < 4 ∨
      data.take 4 ≠ reasonSelector ∧
        ∀ kind : ContractErrorKind, kind.Declared → data.take 4 ≠ kind.selector) :
    decode? data = none := by
  have nowhere (kinds : List ContractErrorKind) (inside : ∀ kind ∈ kinds, kind.Declared) :
      decodeIn? kinds data = none :=
    decodeIn?_eq_none (unknown.imp_right (And.imp_right fun noError kind member =>
      noError kind (inside kind member)))
  rw [decode?, nowhere erc20 fun _ member => .inr (.inl member),
    nowhere messageLibrary fun _ member => .inr (.inr member)]
  rfl

/-- Every declared error is shown by its name with its values, in a text that no other error and no
other values have. Data that is too short or behind no known selector is shown byte by byte. -/
theorem declared_shown_by_name :
    (∀ (kind : ContractErrorKind) (values : List AbiValue),
      kind.Declared → AbiType.AdmitsAll kind.types values →
        decode? (kind.selector ++ Abi.encode values) = some (.error kind values) ∧
        describe (kind.selector ++ Abi.encode values) =
          kind.name ++ "(" ++ showError kind values ++ ")") ∧
    (∀ (kind other : ContractErrorKind) (values others : List AbiValue),
      kind.Declared → AbiType.AdmitsAll kind.types values →
      other.Declared → AbiType.AdmitsAll other.types others →
      describe (kind.selector ++ Abi.encode values) =
          describe (other.selector ++ Abi.encode others) →
        kind = other ∧ values = others) ∧
    (∀ data : Bytes,
      (data.length < 4 ∨
        data.take 4 ≠ reasonSelector ∧
          ∀ kind : ContractErrorKind, kind.Declared → data.take 4 ≠ kind.selector) →
        decode? data = none ∧ describe data = Hex.encode0x data ∧
        (ManagerError.revert data).text = "Contract reverted: " ++ Hex.encode0x data) := by
  have shown {kind : ContractErrorKind} {values : List AbiValue} (declared : kind.Declared)
      (admits : AbiType.AdmitsAll kind.types values) :
      describe (kind.selector ++ Abi.encode values) = text (.error kind values) := by
    rw [describe, decode?_of_declared declared admits]
  refine ⟨?named, ?distinct, ?unknown⟩
  case named =>
    intro kind values declared admits
    exact ⟨decode?_of_declared declared admits, shown declared admits⟩
  case distinct =>
    intro kind other values others declared admits declaredToo admitsToo same
    rw [shown declared admits, shown declaredToo admitsToo] at same
    exact text_error_inj (declared_iff.mp declared) (declared_iff.mp declaredToo) admits admitsToo
      same
  case unknown =>
    intro data unknown
    have bytes : describe data = Hex.encode0x data := by
      rw [describe, decode?_eq_none unknown]
    exact ⟨decode?_eq_none unknown, bytes, congrArg ("Contract reverted: " ++ ·) bytes⟩

/-- A fee that is too high is shown as `InvalidDelegationFee` and not as the codec of a message,
whose number has the same words; four zero bytes are shown as they are. -/
theorem delegationFee_shown_by_name :
    let fee : ContractErrorKind := ⟨"InvalidDelegationFee", [("delegation_fee_bips", .uint 16)]⟩
    let codec : ContractErrorKind := ⟨"InvalidCodecID", [("id", .uint 32)]⟩
    let values : List AbiValue := [.uint 10001]
    (fee.Declared ∧ codec.Declared ∧ AbiType.AdmitsAll fee.types values ∧
      AbiType.AdmitsAll codec.types values) ∧
    describe (fee.selector ++ Abi.encode values) =
      "InvalidDelegationFee(InvalidDelegationFee { delegation_fee_bips: 10001 })" ∧
    describe (codec.selector ++ Abi.encode values) =
      "InvalidCodecID(InvalidCodecID { id: 10001 })" ∧
    describe (fee.selector ++ Abi.encode values) ≠ describe (codec.selector ++ Abi.encode values) ∧
    describe [0, 0, 0, 0] = "0x00000000" := by
  intro fee codec values
  have feeDeclared : fee.Declared := .inl (.tail _ (.head _))
  have codecDeclared : codec.Declared := .inr (.inr (.tail _ (.head _)))
  have admitted {bits : Nat} (wide : 10001 < 2 ^ bits) : AbiType.AdmitsAll [.uint bits] values :=
    .cons (.uint wide) .nil
  have feeAdmits : AbiType.AdmitsAll fee.types values := admitted (by decide)
  have codecAdmits : AbiType.AdmitsAll codec.types values := admitted (by decide)
  obtain ⟨named, distinct, unknown⟩ := declared_shown_by_name
  refine ⟨⟨feeDeclared, codecDeclared, feeAdmits, codecAdmits⟩, ?_, ?_, fun same => ?_, ?_⟩
  · rw [(named fee values feeDeclared feeAdmits).2]
    decide +kernel
  · rw [(named codec values codecDeclared codecAdmits).2]
    decide +kernel
  · have kinds := (distinct fee codec values values feeDeclared feeAdmits codecDeclared codecAdmits
      same).1
    exact absurd (congrArg ContractErrorKind.name kinds) (by decide)
  · have zeros := unknown [0, 0, 0, 0] (.inr ⟨by decide, fun kind declared same =>
      selector_ne_zeros (declared_iff.mp declared) same.symm⟩)
    rw [zeros.2.1]
    decide +kernel

end Declared

end Revert
end Valset
