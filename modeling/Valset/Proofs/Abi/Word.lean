import Valset.Proofs.Abi.RoundTrip

/-!
# Values of a single word

Truth values, numbers, addresses and byte strings of a fixed length take up one word each, so that
a sequence of them is encoded word by word. Whatever is decoded as such a sequence holds values of
its types.
-/

namespace Valset

namespace AbiType

/-- Whether every value of a type is encoded in a single word. -/
def isWord : AbiType → Bool
  | .address | .bool | .uint _ => true
  | .fixedBytes size => 0 < size ∧ size ≤ 32
  | _ => false

theorem anyDynamic_eq_false_of_isWord
    {types : List AbiType}
    (words : ∀ type ∈ types, type.isWord = true) :
    anyDynamic types = false := by
  induction types with
  | nil => rfl
  | cons type types inductionHypothesis =>
      have first := words type List.mem_cons_self
      rw [anyDynamic, inductionHypothesis fun other present =>
        words other (List.mem_cons_of_mem _ present)]
      cases type <;> first | rfl | exact nomatch first

end AbiType

namespace Abi

open Abi.Part

theorem encodeValue_of_isWord
    {type : AbiType}
    {value : AbiValue}
    (admits : type.Admits value)
    (single : type.isWord = true) :
    (encodeValue value).dynamic = false ∧ (encodeValue value).encoded.length = 32 := by
  have fixed := dynamic_encodeValue admits
  have sized : (encodeValue value).headSize = 32 := by
    cases admits with
    | address | bool | uint => simp
    | fixedBytes nonempty fits => exact headSize_fixedBytes nonempty fits
    | bytes | array | tuple => exact nomatch single
  have still : type.isDynamic = false := by
    cases type <;> first | rfl | exact nomatch single
  rw [still] at fixed
  rw [headSize, fixed, if_neg Bool.false_ne_true] at sized
  exact ⟨fixed, sized⟩

theorem length_encoded_of_isWord
    {types : List AbiType}
    {values : List AbiValue}
    (words : ∀ type ∈ types, type.isWord = true)
    (admits : AbiType.AdmitsAll types values) :
    ∀ value ∈ values, (encodeValue value).encoded.length = 32 := by
  induction types generalizing values with
  | nil =>
      cases admits
      exact nofun
  | cons type types inductionHypothesis =>
      cases admits with
      | cons first rest =>
          intro value present
          rcases List.mem_cons.mp present with rfl | later
          · exact (encodeValue_of_isWord first (words type List.mem_cons_self)).2
          · exact inductionHypothesis (fun other known =>
              words other (List.mem_cons_of_mem _ known)) rest value later

theorem encodeParts_eq_map (values : List AbiValue) :
    encodeParts values = values.map encodeValue := by
  induction values with
  | nil => rfl
  | cons value values inductionHypothesis => rw [encodeParts, inductionHypothesis, List.map_cons]

/-- Values of a single word are encoded one behind the other. -/
theorem encode_of_isWord
    {types : List AbiType}
    {values : List AbiValue}
    (words : ∀ type ∈ types, type.isWord = true)
    (admits : AbiType.AdmitsAll types values) :
    encode values = values.flatMap fun value => (encodeValue value).encoded := by
  have static := (any_dynamic_encodeParts admits).trans
    (AbiType.anyDynamic_eq_false_of_isWord words)
  rw [encode, layout_of_static static, encodeParts_eq_map, List.flatMap_map]

theorem length_of_slice
    {data bytes : Bytes}
    {offset size : Nat}
    (sliced : slice data offset size = .ok bytes) :
    bytes.length = size := by
  rw [slice] at sliced
  split at sliced
  · cases sliced
  · obtain rfl := Except.ok.inj sliced
    rw [List.length_take, List.length_drop]
    omega

/-- What is decoded as a value of a single word is a value of the type. -/
theorem admits_of_decodeValue
    {type : AbiType}
    {data : Bytes}
    {offset next : Nat}
    {value : AbiValue}
    (single : type.isWord = true)
    (decoded : decodeValue type data offset = .ok (value, next)) :
    type.Admits value := by
  cases type with
  | address =>
      obtain ⟨word, -, result⟩ := bind_eq_ok_iff.mp decoded
      obtain ⟨rfl, -⟩ := Prod.mk.inj (Except.ok.inj result)
      exact .address _
  | bool =>
      obtain ⟨word, -, result⟩ := bind_eq_ok_iff.mp decoded
      obtain ⟨rfl, -⟩ := Prod.mk.inj (Except.ok.inj result)
      exact .bool _
  | uint bits =>
      obtain ⟨word, -, result⟩ := bind_eq_ok_iff.mp decoded
      obtain ⟨rfl, -⟩ := Prod.mk.inj (Except.ok.inj result)
      exact .uint (Nat.lt_of_le_of_lt (Nat.mod_le _ _) (Nat.mod_lt _ (Nat.pow_pos (by decide))))
  | fixedBytes size =>
      obtain ⟨bytes, sliced, result⟩ := bind_eq_ok_iff.mp decoded
      obtain ⟨rfl, -⟩ := Prod.mk.inj (Except.ok.inj result)
      obtain rfl := length_of_slice sliced
      obtain ⟨positive, fits⟩ := of_decide_eq_true single
      exact .fixedBytes (List.length_pos_iff.mp positive) fits
  | bytes | string | array | tuple => exact nomatch single

theorem admitsAll_of_decodeValues
    {types : List AbiType}
    {data : Bytes}
    {offset next : Nat}
    {values : List AbiValue}
    (words : ∀ type ∈ types, type.isWord = true)
    (decoded : decodeValues types data offset = .ok (values, next)) :
    AbiType.AdmitsAll types values := by
  induction types generalizing offset values with
  | nil =>
      obtain ⟨rfl, -⟩ := Prod.mk.inj (Except.ok.inj decoded)
      exact .nil
  | cons type types inductionHypothesis =>
      obtain ⟨⟨value, middle⟩, first, decoded⟩ := bind_eq_ok_iff.mp decoded
      obtain ⟨⟨rest, last⟩, further, result⟩ := bind_eq_ok_iff.mp decoded
      obtain ⟨rfl, rfl⟩ := Prod.mk.inj (Except.ok.inj result)
      refine .cons (admits_of_decodeValue (words type List.mem_cons_self) first) ?_
      exact inductionHypothesis (fun other known => words other (List.mem_cons_of_mem _ known))
        further

/-- Values that are decoded from words are values of their types. -/
theorem admitsAll_of_decode
    {types : List AbiType}
    {data : Bytes}
    {values : List AbiValue}
    (words : ∀ type ∈ types, type.isWord = true)
    (decoded : decode types data = .ok values) :
    AbiType.AdmitsAll types values := by
  rw [decode] at decoded
  split at decoded
  · cases decoded
  · obtain ⟨⟨values, last⟩, all, rfl⟩ := map_eq_ok_iff.mp decoded
    exact admitsAll_of_decodeValues words all

end Abi
end Valset
