import Valset.Abi.Decode
import Valset.Proofs.Abi
import Valset.Proofs.Except

/-!
# Encoded values are read back

A value stands in data when its encoding is found there, at the offset of its head if its size is
fixed and behind the offset that its head names otherwise. Whatever stands in data is decoded from
there, so that the values of some types are read back from their encoding. Offsets and lengths take
part in this only below `2 ^ 32`, beyond which the decoder refuses them.
-/

namespace Valset

namespace AbiType

mutual

/-- A value is one of a type. Texts, which no tuple of a contract holds, are left out. -/
inductive Admits : AbiType → AbiValue → Prop
  | address (value : Address) : Admits .address (.address value)
  | bool (value : Bool) : Admits .bool (.bool value)
  | uint {bits : Nat} {value : U256} (fits : value.toNat < 2 ^ bits) :
      Admits (.uint bits) (.uint value)
  | fixedBytes {value : Bytes} (nonempty : value ≠ []) (fits : value.length ≤ 32) :
      Admits (.fixedBytes value.length) (.fixedBytes value)
  | bytes (value : Bytes) : Admits .bytes (.bytes value)
  | array {item : AbiType} {items : List AbiValue} (all : ∀ value ∈ items, Admits item value) :
      Admits (.array item) (.array items)
  | tuple {types : List AbiType} {values : List AbiValue} (nonempty : types ≠ [])
      (all : AdmitsAll types values) : Admits (.tuple types) (.tuple values)

/-- Each of a sequence of values is one of the type at its place. -/
inductive AdmitsAll : List AbiType → List AbiValue → Prop
  | nil : AdmitsAll [] []
  | cons {type : AbiType} {value : AbiValue} {types : List AbiType} {values : List AbiValue}
      (first : Admits type value) (rest : AdmitsAll types values) :
      AdmitsAll (type :: types) (value :: values)

end

/-- There are as many values as types. -/
theorem AdmitsAll.length_eq
    {types : List AbiType}
    {values : List AbiValue} :
    AdmitsAll types values → values.length = types.length
  | .nil => rfl
  | .cons _ rest => congrArg (· + 1) rest.length_eq

end AbiType

namespace Abi

/-! ## Bytes in data -/

/-- Bytes are found in data at an offset. -/
def Occurs (bytes data : Bytes) (offset : Nat) : Prop :=
  ∃ before after, data = before ++ (bytes ++ after) ∧ before.length = offset

theorem occurs_self (bytes : Bytes) : Occurs bytes bytes 0 :=
  ⟨[], [], by simp, rfl⟩

section Occurs

variable
  {first second bytes data : Bytes}
  {offset start size : Nat}

theorem Occurs.left (occurs : Occurs (first ++ second) data offset) :
    Occurs first data offset := by
  obtain ⟨before, after, rfl, rfl⟩ := occurs
  exact ⟨before, second ++ after, by rw [List.append_assoc], rfl⟩

theorem Occurs.right (occurs : Occurs (first ++ second) data offset) :
    Occurs second data (offset + first.length) := by
  obtain ⟨before, after, rfl, rfl⟩ := occurs
  exact ⟨before ++ first, after, by simp, by simp⟩

/-- What occurs somewhere ends within the data. -/
theorem Occurs.le_length (occurs : Occurs bytes data offset) :
    offset + bytes.length ≤ data.length := by
  obtain ⟨before, after, rfl, rfl⟩ := occurs
  simp

/-- What is found at an offset stands in front once the bytes before it are gone. -/
theorem Occurs.drop (occurs : Occurs bytes data offset) : Occurs bytes (data.drop offset) 0 := by
  obtain ⟨before, after, rfl, rfl⟩ := occurs
  exact ⟨[], after, by simp, rfl⟩

/-- Bytes that occur somewhere are sliced out there. -/
theorem slice_of_occurs
    (occurs : Occurs bytes data offset)
    (sized : bytes.length = size) :
    slice data offset size = .ok bytes := by
  have inside := occurs.le_length
  obtain ⟨before, after, rfl, rfl⟩ := occurs
  rw [slice, if_neg (by omega), List.drop_left, List.take_left' sized]

end Occurs

section Word

variable
  {data : Bytes}
  {offset value : Nat}

/-- A word that occurs somewhere is read there. -/
theorem wordAt_of_occurs (occurs : Occurs (word value) data offset) :
    wordAt data offset = .ok (word value) :=
  slice_of_occurs occurs (length_word value)

/-- A word has the number that it was made for. -/
theorem toNat_word (small : value < 2 ^ 256) : Bytes.toNat (word value) = value := by
  rw [word, Bytes.toNat_ofNat]
  exact Nat.mod_eq_of_lt small

/-- Offsets and lengths below `2 ^ 32` are read back. -/
theorem sizeAt_of_occurs
    (occurs : Occurs (word value) data offset)
    (small : value < UInt32.size) :
    sizeAt data offset = .ok value := by
  have known : Bytes.toNat (word value) = value :=
    toNat_word (Nat.lt_trans small (by decide))
  rw [sizeAt, bind_eq_ok_iff]
  refine ⟨word value, wordAt_of_occurs occurs, ?_⟩
  simp only [known, small, if_true]
  rfl

end Word

/-! ## Values in data -/

namespace Part

/-- A part takes no less room in a layout than its own encoding. -/
theorem length_encoded_le_layout (part : Part) :
    part.encoded.length ≤ (layout [part]).length := by
  rw [layout, heads, heads, tails, tails]
  split <;> simp

/-- A part stands in data with its head at an offset. -/
def Stands (part : Part) (data : Bytes) (offset : Nat) : Prop :=
  if part.dynamic then
    ∃ start, Occurs (word start) data offset ∧ Occurs part.encoded data start
  else Occurs part.encoded data offset

/-- Parts stand in data with their heads one behind the other from an offset on. -/
def StandAll : List Part → (data : Bytes) → (offset : Nat) → Prop
  | [], _, _ => True
  | part :: rest, data, offset =>
    part.Stands data offset ∧ StandAll rest data (offset + part.headSize)

/-- Parts stand where their heads are found, when their tails are found at the offset on which the
heads rely. -/
theorem standAll_of_heads
    {parts : List Part}
    {data : Bytes}
    {offset later : Nat}
    (headsOccur : Occurs (heads later parts) data offset)
    (tailsOccur : Occurs (tails parts) data later) :
    StandAll parts data offset := by
  induction parts generalizing offset later with
  | nil => trivial
  | cons part rest inductionHypothesis =>
      rw [heads] at headsOccur
      rw [tails] at tailsOccur
      cases dynamic : part.dynamic with
      | true =>
          rw [dynamic, if_pos rfl] at headsOccur tailsOccur
          refine ⟨?_, ?_⟩
          · rw [Stands, dynamic, if_pos rfl]
            exact ⟨later, headsOccur.left, tailsOccur.left⟩
          · rw [headSize, dynamic, if_pos rfl]
            refine inductionHypothesis ?_ tailsOccur.right
            simpa using headsOccur.right
      | false =>
          rw [dynamic, if_neg Bool.false_ne_true] at headsOccur tailsOccur
          refine ⟨?_, ?_⟩
          · rw [Stands, dynamic, if_neg Bool.false_ne_true]
            exact headsOccur.left
          · rw [headSize, dynamic, if_neg Bool.false_ne_true]
            exact inductionHypothesis headsOccur.right tailsOccur

/-- The parts of a sequence stand in its layout. -/
theorem standAll_of_layout
    {parts : List Part}
    {data : Bytes}
    (occurs : Occurs (layout parts) data 0) :
    StandAll parts data 0 := by
  rw [layout] at occurs
  refine standAll_of_heads occurs.left ?_
  simpa [length_heads] using occurs.right

/-- Parts of fixed size are laid out one behind the other. -/
theorem standAll_of_static
    {parts : List Part}
    {data : Bytes}
    {offset : Nat}
    (static : parts.any dynamic = false)
    (occurs : Occurs (layout parts) data offset) :
    StandAll parts data offset := by
  rw [layout] at occurs
  have headsOccur := occurs.left
  clear occurs
  generalize headsSize parts = later at headsOccur
  induction parts generalizing offset with
  | nil => trivial
  | cons part rest inductionHypothesis =>
      rw [List.any_cons, Bool.or_eq_false_iff] at static
      obtain ⟨dynamic, restStatic⟩ := static
      rw [heads, dynamic, if_neg Bool.false_ne_true] at headsOccur
      refine ⟨?_, ?_⟩
      · rw [Stands, dynamic, if_neg Bool.false_ne_true]
        exact headsOccur.left
      · rw [headSize, dynamic, if_neg Bool.false_ne_true]
        exact inductionHypothesis restStatic headsOccur.right

/-- Parts without tails need no offsets. -/
theorem tails_of_static
    {parts : List Part}
    (static : parts.any dynamic = false) :
    tails parts = [] := by
  induction parts with
  | nil => rfl
  | cons part rest inductionHypothesis =>
      rw [List.any_cons, Bool.or_eq_false_iff] at static
      rw [tails, static.1, if_neg Bool.false_ne_true, inductionHypothesis static.2]

/-- The layout of parts without tails is their encodings in a row. -/
theorem layout_of_static
    {parts : List Part}
    (static : parts.any dynamic = false) :
    layout parts = parts.flatMap (·.encoded) := by
  rw [layout, tails_of_static static, List.append_nil]
  generalize headsSize parts = offset
  induction parts with
  | nil => rfl
  | cons part rest inductionHypothesis =>
      rw [List.any_cons, Bool.or_eq_false_iff] at static
      rw [heads, static.1, if_neg Bool.false_ne_true, inductionHypothesis static.2,
        List.flatMap_cons]

/-- Parts without tails take the room of their heads. -/
theorem length_layout_of_static
    {parts : List Part}
    (static : parts.any dynamic = false) :
    (layout parts).length = headsSize parts := by
  rw [layout, tails_of_static static, List.append_nil, length_heads]

end Part

open Abi.Part

/-- Bytes are filled up to whole words. -/
theorem length_padRight (bytes : Bytes) :
    (padRight bytes).length = bytes.length + (32 - bytes.length % 32) % 32 := by
  simp [padRight, Bytes.zeros]

mutual

/-- A value is encoded as the size of its type asks. -/
theorem dynamic_encodeValue
    {type : AbiType}
    {value : AbiValue} :
    type.Admits value → (encodeValue value).dynamic = type.isDynamic
  | .address _ | .bool _ | .uint _ | .fixedBytes _ _ | .bytes _ | .array _ => by
      rw [encodeValue, AbiType.isDynamic]
      all_goals nofun
  | .tuple _ all => by
      rw [encodeValue, AbiType.isDynamic]
      exact any_dynamic_encodeParts all

theorem any_dynamic_encodeParts
    {types : List AbiType}
    {values : List AbiValue} :
    AbiType.AdmitsAll types values →
      (encodeParts values).any dynamic = AbiType.anyDynamic types
  | .nil => rfl
  | .cons first rest => by
      rw [encodeParts, List.any_cons, AbiType.anyDynamic, dynamic_encodeValue first,
        any_dynamic_encodeParts rest]

end

@[simp] theorem headSize_address (value : Address) :
    (encodeValue (.address value)).headSize = 32 := by
  simp [encodeValue, headSize, Bytes.zeros, value.length_bytes]

@[simp] theorem headSize_bool (value : Bool) : (encodeValue (.bool value)).headSize = 32 := by
  simp [encodeValue, headSize]

@[simp] theorem headSize_uint (value : U256) : (encodeValue (.uint value)).headSize = 32 := by
  simp [encodeValue, headSize]

theorem headSize_fixedBytes
    {value : Bytes}
    (nonempty : value ≠ [])
    (fits : value.length ≤ 32) :
    (encodeValue (.fixedBytes value)).headSize = 32 := by
  have positive := List.length_pos_iff.mpr nonempty
  simp only [encodeValue, headSize, length_padRight, Bool.false_eq_true, if_false]
  omega

mutual

/-- The head of a value takes up a word at least. -/
theorem le_headSize_encodeValue
    {type : AbiType}
    {value : AbiValue} :
    type.Admits value → 32 ≤ (encodeValue value).headSize
  | .address _ | .bool _ | .uint _ => by simp
  | .fixedBytes nonempty fits => Nat.le_of_eq (headSize_fixedBytes nonempty fits).symm
  | .bytes _ | .array _ => by simp [encodeValue, headSize]
  | @AbiType.Admits.tuple _ values nonempty all => by
      have sized := le_headsSize_encodeParts nonempty all
      rw [encodeValue, headSize]
      split
      · exact Nat.le_refl 32
      · simp only [layout, List.length_append, length_heads]
        omega

theorem le_headsSize_encodeParts
    {types : List AbiType}
    {values : List AbiValue}
    (nonempty : types ≠ []) :
    AbiType.AdmitsAll types values → 32 ≤ headsSize (encodeParts values)
  | .nil => absurd rfl nonempty
  | .cons first _ => by
      have sized := le_headSize_encodeValue first
      rw [encodeParts, headsSize]
      omega

end

/-- A list of values has no more members than words in its layout. -/
theorem length_le_headsSize
    {item : AbiType}
    {values : List AbiValue}
    (all : ∀ value ∈ values, item.Admits value) :
    values.length ≤ headsSize (encodeParts values) := by
  induction values with
  | nil => exact Nat.zero_le _
  | cons value values inductionHypothesis =>
      have sized := le_headSize_encodeValue (all value List.mem_cons_self)
      have later := inductionHypothesis fun other present =>
        all other (List.mem_cons_of_mem _ present)
      rw [encodeParts, headsSize, List.length_cons]
      omega

/-! ## Decoding -/

section Words

variable
  {data : Bytes}
  {offset : Nat}

/-- An address is decoded where its word occurs. -/
theorem decodeValue_of_occurs_address
    {value : Address}
    (occurs : Occurs (Bytes.zeros 12 ++ value.bytes) data offset) :
    decodeValue .address data offset = .ok (.address value, offset + 32) := by
  have sized : (Bytes.zeros 12 ++ value.bytes).length = 32 := by
    simp [Bytes.zeros, value.length_bytes]
  have fitted : FixedBytes.fit ((Bytes.zeros 12 ++ value.bytes).drop 12) = value :=
    (FixedBytes.fit_eq_iff value.length_bytes).mpr rfl
  rw [decodeValue, bind_eq_ok_iff]
  refine ⟨_, slice_of_occurs occurs sized, ?_⟩
  rw [fitted]
  rfl

/-- A truth value is decoded where its word occurs. -/
theorem decodeValue_of_occurs_bool
    {value : Bool}
    (occurs : Occurs (word value.toNat) data offset) :
    decodeValue .bool data offset = .ok (.bool value, offset + 32) := by
  have number : Bytes.toNat (word value.toNat) = value.toNat :=
    toNat_word (Nat.lt_of_le_of_lt (Bool.toNat_le value) (by decide))
  have known : boolAt data offset = .ok value := by
    rw [boolAt, bind_eq_ok_iff]
    refine ⟨_, wordAt_of_occurs occurs, ?_⟩
    simp only [number]
    cases value <;> rfl
  rw [decodeValue, known]
  rfl

/-- A number is decoded where its word occurs. -/
theorem decodeValue_of_occurs_uint
    {bits : Nat}
    {value : U256}
    (fits : value.toNat < 2 ^ bits)
    (occurs : Occurs (word value.toNat) data offset) :
    decodeValue (.uint bits) data offset = .ok (.uint value, offset + 32) := by
  rw [decodeValue, bind_eq_ok_iff]
  refine ⟨_, wordAt_of_occurs occurs, ?_⟩
  have kept : Bytes.toNat (word value.toNat) % Nat.pow 2 bits = value.toNat := by
    rw [toNat_word value.isLt]
    exact Nat.mod_eq_of_lt fits
  simp only [kept, BitVec.ofNat_toNat, BitVec.setWidth_eq]
  rfl

/-- Bytes of a fixed length are decoded where their word occurs. -/
theorem decodeValue_of_occurs_fixedBytes
    {value : Bytes}
    (occurs : Occurs (padRight value) data offset) :
    decodeValue (.fixedBytes value.length) data offset =
      .ok (.fixedBytes value, offset + 32) := by
  rw [decodeValue, bind_eq_ok_iff]
  exact ⟨_, slice_of_occurs occurs.left rfl, rfl⟩

/-- Bytes of any length are decoded where the word of their offset and they themselves occur. -/
theorem decodeValue_of_occurs_bytes
    {value : Bytes}
    {start : Nat}
    (short : data.length < UInt32.size)
    (offsetOccurs : Occurs (word start) data offset)
    (occurs : Occurs (word value.length ++ padRight value) data start) :
    decodeValue .bytes data offset = .ok (.bytes value, offset + 32) := by
  have inside := occurs.le_length
  simp only [List.length_append, length_word, length_padRight] at inside
  have known : bytesAt data offset = .ok value := by
    rw [bytesAt, bind_eq_ok_iff]
    refine ⟨start, sizeAt_of_occurs offsetOccurs (by omega), ?_⟩
    rw [bind_eq_ok_iff]
    refine ⟨value.length, sizeAt_of_occurs occurs.left (by omega), ?_⟩
    have content := occurs.right
    rw [length_word] at content
    exact slice_of_occurs content.left rfl
  rw [decodeValue, known]
  rfl

end Words

/-- Values that stand one behind the other are decoded when each of them is. -/
theorem decodeMany_of_standAll
    {item : (offset : Nat) → Except AbiError (AbiValue × Nat)}
    {values : List AbiValue}
    {data : Bytes}
    {offset : Nat}
    (each : ∀ value ∈ values, ∀ offset, (encodeValue value).Stands data offset →
      item offset = .ok (value, offset + (encodeValue value).headSize))
    (stand : StandAll (encodeParts values) data offset) :
    decodeMany item values.length offset = .ok values := by
  induction values generalizing offset with
  | nil => rfl
  | cons value values inductionHypothesis =>
      rw [encodeParts, StandAll] at stand
      rw [List.length_cons, decodeMany, bind_eq_ok_iff]
      refine ⟨_, each value List.mem_cons_self _ stand.1, ?_⟩
      rw [bind_eq_ok_iff]
      refine ⟨values, inductionHypothesis ?_ stand.2, rfl⟩
      exact fun other present => each other (List.mem_cons_of_mem _ present)

mutual

/-- A value is decoded where it stands, and the next head follows behind its own. -/
theorem decodeValue_of_stands
    {type : AbiType}
    {value : AbiValue}
    {data : Bytes}
    {offset : Nat}
    (short : type.isDynamic = true → data.length < UInt32.size)
    (stands : (encodeValue value).Stands data offset) :
    type.Admits value →
      decodeValue type data offset = .ok (value, offset + (encodeValue value).headSize)
  | .address value => by
      rw [headSize_address]
      exact decodeValue_of_occurs_address stands
  | .bool value => by
      rw [headSize_bool]
      exact decodeValue_of_occurs_bool stands
  | .uint fits => by
      rw [headSize_uint]
      exact decodeValue_of_occurs_uint fits stands
  | .fixedBytes nonempty fits => by
      rw [headSize_fixedBytes nonempty fits]
      exact decodeValue_of_occurs_fixedBytes stands
  | .bytes _ => by
      obtain ⟨start, offsetOccurs, occurs⟩ := stands
      exact decodeValue_of_occurs_bytes (short rfl) offsetOccurs occurs
  | @AbiType.Admits.array item items all => by
      have whole := short rfl
      rw [encodeValue, Stands, if_pos rfl] at stands
      obtain ⟨start, offsetOccurs, occurs⟩ := stands
      have inside := occurs.le_length
      have layoutOccurs := occurs.right
      rw [length_word] at layoutOccurs
      -- An item takes up a word at least, so that the number of items is as small as an offset.
      have counted := length_le_headsSize all
      simp only [List.length_append, length_word, layout, length_heads] at inside
      have shortRest : (data.drop (start + 32)).length < UInt32.size := by
        rw [List.length_drop]
        omega
      rw [decodeValue, bind_eq_ok_iff]
      refine ⟨start, sizeAt_of_occurs offsetOccurs (by omega), ?_⟩
      rw [bind_eq_ok_iff]
      refine ⟨items.length, sizeAt_of_occurs occurs.left (by omega), ?_⟩
      rw [bind_eq_ok_iff]
      refine ⟨items, decodeMany_of_standAll ?_ (standAll_of_layout layoutOccurs.drop), rfl⟩
      exact fun value present _ itemStands =>
        decodeValue_of_stands (fun _ => shortRest) itemStands (all value present)
  | @AbiType.Admits.tuple types values nonempty all => by
      have dynamic := any_dynamic_encodeParts all
      rw [AbiType.isDynamic] at short
      rw [decodeValue]
      cases sized : AbiType.anyDynamic types with
      | true =>
          rw [sized] at dynamic
          rw [encodeValue, Stands, dynamic, if_pos rfl] at stands
          obtain ⟨start, offsetOccurs, occurs⟩ := stands
          have inside := occurs.le_length
          have whole := short sized
          have shortRest : (data.drop start).length < UInt32.size := by
            rw [List.length_drop]
            omega
          rw [if_pos rfl, encodeValue, headSize, dynamic, if_pos rfl, bind_eq_ok_iff]
          refine ⟨start, sizeAt_of_occurs offsetOccurs (by omega), ?_⟩
          rw [if_neg (by omega), bind_eq_ok_iff]
          exact ⟨_, decodeValues_of_standAll (fun _ => shortRest)
            (standAll_of_layout occurs.drop) all, rfl⟩
      | false =>
          rw [sized] at dynamic
          rw [encodeValue, Stands, dynamic, if_neg Bool.false_ne_true] at stands
          rw [if_neg Bool.false_ne_true, encodeValue, headSize, dynamic,
            if_neg Bool.false_ne_true, bind_eq_ok_iff]
          refine ⟨_, decodeValues_of_standAll short (standAll_of_static dynamic stands) all, ?_⟩
          rw [length_layout_of_static dynamic]
          rfl

/-- Values are decoded one after the other from where they stand. -/
theorem decodeValues_of_standAll
    {types : List AbiType}
    {values : List AbiValue}
    {data : Bytes}
    {offset : Nat}
    (short : AbiType.anyDynamic types = true → data.length < UInt32.size)
    (stand : StandAll (encodeParts values) data offset) :
    AbiType.AdmitsAll types values →
      decodeValues types data offset = .ok (values, offset + headsSize (encodeParts values))
  | .nil => rfl
  | .cons first rest => by
      rw [encodeParts, StandAll] at stand
      rw [decodeValues, bind_eq_ok_iff]
      rw [AbiType.anyDynamic, Bool.or_eq_true] at short
      refine ⟨_, decodeValue_of_stands (fun sized => short (.inl sized)) stand.1 first, ?_⟩
      rw [bind_eq_ok_iff]
      refine ⟨_, decodeValues_of_standAll (fun sized => short (.inr sized)) stand.2 rest, ?_⟩
      rw [encodeParts, headsSize, Nat.add_assoc]
      rfl

end

/-- Values of some types are read back from their encoding, as long as it has less than `2 ^ 32`
bytes or none of them has a size of its own. -/
theorem decode_encode_of_admits
    {types : List AbiType}
    {values : List AbiValue}
    (admits : AbiType.AdmitsAll types values)
    (short : AbiType.anyDynamic types = true → (encode values).length < UInt32.size) :
    decode types (encode values) = .ok values := by
  have decoded := decodeValues_of_standAll short (standAll_of_layout (occurs_self _)) admits
  rw [decode, if_neg]
  · rw [decoded]
    rfl
  · -- Nothing at all is refused where a value is wanted, but a value takes up a word.
    rintro ⟨wanted, empty⟩
    have sized := le_headsSize_encodeParts (by simpa using wanted) admits
    have whole := headsSize_le_length_encode values
    rw [List.isEmpty_iff.mp empty, List.length_nil] at whole
    omega

/-- One value comes back from its encoding. -/
theorem decode_encode_singleton
    {type : AbiType}
    {value : AbiValue}
    (admits : type.Admits value)
    (short : type.isDynamic = true → (encode [value]).length < UInt32.size) :
    decode [type] (encode [value]) = .ok [value] := by
  refine decode_encode_of_admits (.cons admits .nil) fun dynamic => short ?_
  rwa [AbiType.anyDynamic, AbiType.anyDynamic, Bool.or_false] at dynamic

theorem length_encodeStruct_le (value : AbiValue) :
    (encodeStruct value).length ≤ (encode [value]).length := by
  cases value with
  | tuple fields => exact length_encoded_le_layout (encodeValue (.tuple fields))
  | _ => exact Nat.le_refl _

/-- A value of a type is read back from its encoding by its fields. -/
theorem decodeStruct_encodeStruct
    {type : AbiType}
    {value : AbiValue}
    (admits : type.Admits value)
    (short : type.isDynamic = true → (encode [value]).length < UInt32.size) :
    decodeStruct type (encodeStruct value) = .ok value := by
  have whole := decode_encode_singleton admits short
  cases admits with
  | @tuple types values nonempty all =>
      rw [AbiType.isDynamic] at short
      have sized := length_encodeStruct_le (.tuple values)
      have fields := decode_encode_of_admits all fun dynamic =>
        Nat.lt_of_le_of_lt sized (short dynamic)
      rw [decodeStruct, encodeStruct, fields]
      rfl
  | _ =>
      simp only [decodeStruct, encodeStruct, whole]
      rfl

end Abi
end Valset
