import Valset.Proofs.Event.Identity
import Valset.Proofs.Json.Places

/-!
# Byte strings among the fields of a record

`hexify` is described by what stands at each place of its result: the text of an array of bytes
where the value has one, what the value has everywhere else outside such arrays, and nothing more.
No other function does that, so a value without arrays of bytes stays as it is. The result is such
a value.
-/

namespace Valset
namespace Json

/-! ## Arrays of bytes -/

/-- Numbers between 0 and 255, as many as a node id or a hash has bytes. -/
structure AreBytes (numbers : List Nat) : Prop where
  length_eq : numbers.length = 20 ∨ numbers.length = 32
  le_255 : ∀ number ∈ numbers, number ≤ 255

/-- An array of exactly 20 or 32 whole numbers between 0 and 255. A double is no whole number, also
where it has no fraction. -/
def IsByteArray (value : Json) : Prop :=
  ∃ numbers, AreBytes numbers ∧ value = .array (numbers.map ofNat)

/-- The marker `0x` and two lower-case digits for each number. -/
def byteText (numbers : List Nat) : String :=
  "0x" ++ String.ofList
    (numbers.flatMap fun number => [Nat.digitChar (number / 16), Nat.digitChar (number % 16)])

/-- No array of bytes stands anywhere in the value. -/
def FreeOfByteArrays (value : Json) : Prop :=
  ∀ place found, value.at? place = some found → ¬found.IsByteArray

/-- The place leads into an array of bytes. -/
def InsideByteArray (value : Json) (place : List Nat) : Prop :=
  ∃ front index below array, place = front ++ index :: below ∧
    value.at? front = some array ∧ array.IsByteArray

/-- The result differs from the value in that each array of bytes is replaced by its text. -/
structure BytesReplaced (value result : Json) : Prop where
  /-- The text of an array of bytes stands at the place of the array. -/
  replaced :
    ∀ place numbers, AreBytes numbers → value.at? place = some (.array (numbers.map ofNat)) →
      result.at? place = some (.string (byteText numbers))
  /-- Arrays of another kind keep their length, objects their keys, and other values do not
  change. -/
  kept :
    ∀ place found, value.at? place = some found → ¬found.IsByteArray →
      ¬value.InsideByteArray place → (result.at? place).map hull = some found.hull
  /-- No place is added. -/
  nothing_added : ∀ place, value.at? place = none → result.at? place = none

variable
  {value result : Json}
  {numbers : List Nat}
  {place : List Nat}

/-- Bytes as numbers make a byte array if there are 20 or 32 of them. -/
theorem areBytes_map_toNat_iff {bytes : Bytes} :
    AreBytes (bytes.map UInt8.toNat) ↔ bytes.length = 20 ∨ bytes.length = 32 := by
  constructor
  · intro areBytes
    simpa only [List.length_map] using areBytes.length_eq
  · intro count
    refine ⟨by rwa [List.length_map], fun number present => ?_⟩
    obtain ⟨byte, -, rfl⟩ := List.mem_map.mp present
    exact Nat.le_of_lt_succ byte.toNat_lt

/-- The numbers of a byte array are those of some bytes. -/
theorem AreBytes.exists_bytes (areBytes : AreBytes numbers) :
    ∃ bytes : Bytes, numbers = bytes.map UInt8.toNat := by
  have back : ∀ number ∈ numbers, number = (UInt8.ofNat number).toNat := fun number present =>
    (UInt8.toNat_ofNat_of_lt' (Nat.lt_succ_of_le (areBytes.le_255 number present))).symm
  refine ⟨numbers.map UInt8.ofNat, ?_⟩
  rw [List.map_map]
  exact (List.map_id numbers).symm.trans (List.map_congr_left back)

theorem bytesAsNumbers_eq_map (bytes : Bytes) :
    bytesAsNumbers bytes = (bytes.map UInt8.toNat).map ofNat := by
  rw [List.map_map]
  rfl

/-- The digits of bytes are those of numbers in base 16. -/
theorem digit_eq_digitChar
    {value : Nat}
    (small : value < 16) :
    Hex.digit value = Nat.digitChar value := by
  have each : ∀ value : Fin 16, Hex.digit value = Nat.digitChar value := by decide
  exact each ⟨value, small⟩

/-- Bytes are written as their text in hexadecimal. -/
theorem ofBytes_eq (bytes : Bytes) :
    ofBytes bytes = .string (byteText (bytes.map UInt8.toNat)) := by
  have digits (byte : UInt8) : Hex.byteDigits byte =
      [Nat.digitChar (byte.toNat / 16), Nat.digitChar (byte.toNat % 16)] := by
    have small := byte.toNat_lt
    rw [Hex.byteDigits, digit_eq_digitChar (by omega), digit_eq_digitChar (by omega)]
  rw [ofBytes, Hex.encode0x, Hex.encode, Hex.encodeChars, byteText, List.flatMap_map,
    funext digits]

/-! ## One level of a value -/

/-- An item that is read as a byte is the number of the byte. -/
theorem eq_of_byte?_eq_some
    {item : Json}
    {byte : UInt8}
    (read : byte? item = some byte) :
    item = .ofNat byte.toNat := by
  unfold byte? at read
  split at read
  · rename_i number
    split_ifs at read with small
    obtain rfl := Option.some.inj read
    have fits : number.toNat < 256 := by omega
    rw [ofNat, UInt8.toNat_ofNat_of_lt' fits, Int.toNat_of_nonneg small.1]
  · cases read

/-- Items that are read as bytes are the numbers of the bytes. -/
theorem eq_bytesAsNumbers_of_mapM_byte?
    {items : List Json}
    {bytes : Bytes}
    (read : items.mapM byte? = some bytes) :
    items = bytesAsNumbers bytes := by
  induction items generalizing bytes with
  | nil =>
      obtain rfl := Option.some.inj read
      rfl
  | cons item items inductionHypothesis =>
      rw [List.mapM_cons] at read
      obtain ⟨byte, readByte, readRest⟩ := Option.bind_eq_some_iff.mp read
      obtain ⟨rest, readItems, shape⟩ := Option.bind_eq_some_iff.mp readRest
      obtain rfl := Option.some.inj shape
      rw [eq_of_byte?_eq_some readByte, inductionHypothesis readItems]
      rfl

/-- A byte array is replaced by the text of its bytes. -/
theorem hexify_array_of_areBytes (areBytes : AreBytes numbers) :
    hexify (.array (numbers.map ofNat)) = .string (byteText numbers) := by
  obtain ⟨bytes, rfl⟩ := areBytes.exists_bytes
  rw [← bytesAsNumbers_eq_map, hexify_bytesAsNumbers,
    if_pos (areBytes_map_toNat_iff.mp areBytes), ofBytes_eq]

theorem hexifyItems_eq_map (items : List Json) : hexifyItems items = items.map hexify := by
  induction items with
  | nil => rfl
  | cons item items inductionHypothesis =>
      rw [hexifyItems, inductionHypothesis, List.map_cons]

theorem hexifyFields_eq_map (fields : List (String × Json)) :
    hexifyFields fields = fields.map fun field => (field.1, field.2.hexify) := by
  induction fields with
  | nil => rfl
  | cons field fields inductionHypothesis =>
      rw [hexifyFields, inductionHypothesis, List.map_cons]

/-- All other arrays are entered. -/
theorem hexify_array_of_not_isByteArray
    {items : List Json}
    (other : ¬(array items).IsByteArray) :
    hexify (.array items) = .array (items.map hexify) := by
  rw [hexify]
  split
  · rename_i bytes read
    unfold byteString? at read
    split_ifs at read with count
    obtain rfl := eq_bytesAsNumbers_of_mapM_byte? read
    rw [bytesAsNumbers, List.length_map] at count
    have numbered := congrArg array (bytesAsNumbers_eq_map bytes)
    exact absurd ⟨_, areBytes_map_toNat_iff.mpr count, numbered⟩ other
  · rw [hexifyItems_eq_map]

/-- The children of other values are rewritten one by one. -/
theorem children_hexify (other : ¬value.IsByteArray) :
    value.hexify.children = value.children.map hexify := by
  cases value with
  | null | bool | number | string => rfl
  | array items => rw [hexify_array_of_not_isByteArray other, children, children]
  | object fields =>
      rw [hexify, hexifyFields_eq_map, children, children, List.map_map, List.map_map]
      rfl

/-- All else of other values stays as it is. -/
theorem hull_hexify (other : ¬value.IsByteArray) : value.hexify.hull = value.hull := by
  cases value with
  | null | bool | number | string => rfl
  | array items =>
      rw [hexify_array_of_not_isByteArray other, hull, hull, List.map_map]
      rfl
  | object fields =>
      rw [hexify, hexifyFields_eq_map, hull, hull, List.map_map]
      rfl

/-- Only a number becomes a number. -/
theorem eq_ofNat_of_hexify_eq
    {number : Nat}
    (same : value.hexify = .ofNat number) :
    value = .ofNat number := by
  cases value with
  | null | bool | number | string => exact same
  | array items =>
      rw [hexify] at same
      split at same <;> cases same
  | object fields =>
      rw [hexify] at same
      cases same

theorem eq_map_ofNat_of_map_hexify_eq
    {items : List Json}
    (same : items.map hexify = numbers.map ofNat) :
    items = numbers.map ofNat := by
  induction items generalizing numbers with
  | nil => exact same
  | cons item items inductionHypothesis =>
      cases numbers with
      | nil => exact nomatch same
      | cons number numbers =>
          obtain ⟨first, rest⟩ := List.cons_eq_cons.mp same
          rw [eq_ofNat_of_hexify_eq first, inductionHypothesis rest, List.map_cons]

/-- To rewrite the children of a value never makes it an array of bytes. -/
theorem not_isByteArray_hexify (value : Json) : ¬value.hexify.IsByteArray := by
  by_cases bytes : value.IsByteArray
  · obtain ⟨numbers, areBytes, rfl⟩ := bytes
    rw [hexify_array_of_areBytes areBytes]
    rintro ⟨_, _, shape⟩
    exact nomatch shape
  · -- The result has the hull and the children of an array of bytes, so the value has them too.
    rintro ⟨numbers, areBytes, shape⟩
    have hulls := hull_hexify bytes
    have numbered := children_hexify bytes
    rw [shape] at hulls numbered
    refine bytes ⟨numbers, areBytes, eq_of_hull_eq_of_children_eq hulls.symm ?_⟩
    exact eq_map_ofNat_of_map_hexify_eq numbered.symm

/-! ## All places of a value -/

/-- Every place below a byte array is inside of one. -/
theorem IsByteArray.inside_cons
    (array : value.IsByteArray)
    (index : Nat)
    (place : List Nat) :
    value.InsideByteArray (index :: place) :=
  ⟨[], index, place, value, rfl, at?_nil value, array⟩

/-- What is inside of a byte array of a child is inside of one of the value. -/
theorem InsideByteArray.cons
    {child : Json}
    {index : Nat}
    (found : value.children[index]? = some child)
    (inside : child.InsideByteArray place) :
    value.InsideByteArray (index :: place) := by
  obtain ⟨front, next, below, array, rfl, there, bytes⟩ := inside
  refine ⟨index :: front, next, below, array, rfl, ?_, bytes⟩
  rw [at?_cons, found]
  exact there

/-- Outside arrays of bytes, what stands at a place is rewritten where it stands. -/
theorem at?_hexify
    (outside : ¬value.InsideByteArray place) :
    value.hexify.at? place = (value.at? place).map hexify := by
  -- On the way to the place no value is an array of bytes, so each step leads to the same child.
  induction place generalizing value with
  | nil => rw [at?_nil, at?_nil, Option.map_some]
  | cons index place inductionHypothesis =>
      have other : ¬value.IsByteArray := fun array => outside (array.inside_cons index place)
      rw [at?_cons, at?_cons, children_hexify other, List.getElem?_map]
      cases found : value.children[index]? with
      | none => rfl
      | some child => exact inductionHypothesis fun inside => outside (inside.cons found)

/-- In an array of bytes stand numbers and nothing else. -/
theorem IsByteArray.eq_ofNat_of_at?_cons
    {found : Json}
    {index : Nat}
    (array : value.IsByteArray)
    (there : value.at? (index :: place) = some found) :
    ∃ number, found = .ofNat number := by
  obtain ⟨numbers, -, rfl⟩ := array
  rw [at?_cons, children, List.getElem?_map] at there
  cases taken : numbers[index]? with
  | none => simp [taken] at there
  | some number =>
      rw [taken] at there
      cases place with
      | nil => exact ⟨number, (Option.some.inj there).symm⟩
      | cons next place =>
          rw [Option.map_some, Option.bind_some, at?_cons_of_children_eq_nil rfl] at there
          cases there

/-- A byte array is not inside of another one. -/
theorem IsByteArray.not_inside
    {array : Json}
    (bytes : array.IsByteArray)
    (there : value.at? place = some array) :
    ¬value.InsideByteArray place := by
  rintro ⟨front, index, below, outer, rfl, found, outerBytes⟩
  rw [at?_append, found] at there
  obtain ⟨number, rfl⟩ := outerBytes.eq_ofNat_of_at?_cons there
  obtain ⟨_, _, shape⟩ := bytes
  exact nomatch shape

/-- Where there is a byte array, there is the text of its bytes after rewriting. -/
theorem at?_hexify_of_areBytes
    (areBytes : AreBytes numbers)
    (there : value.at? place = some (.array (numbers.map ofNat))) :
    value.hexify.at? place = some (.string (byteText numbers)) := by
  have outside := IsByteArray.not_inside ⟨numbers, areBytes, rfl⟩ there
  rw [at?_hexify outside, there, Option.map_some, hexify_array_of_areBytes areBytes]

/-- Nothing stands below the text of an array of bytes. -/
theorem at?_eq_none_of_inside
    (replaced : ∀ place numbers, AreBytes numbers →
      value.at? place = some (.array (numbers.map ofNat)) →
      result.at? place = some (.string (byteText numbers)))
    (inside : value.InsideByteArray place) :
    result.at? place = none := by
  obtain ⟨front, index, below, array, rfl, there, numbers, areBytes, rfl⟩ := inside
  rw [at?_append, replaced front numbers areBytes there, Option.bind_some]
  exact at?_cons_of_children_eq_nil rfl index below

/-- Nothing is left inside of byte arrays. -/
theorem at?_hexify_of_inside (inside : value.InsideByteArray place) :
    value.hexify.at? place = none :=
  at?_eq_none_of_inside (fun _ _ => at?_hexify_of_areBytes) inside

/-- Rewriting replaces the byte arrays and nothing else. -/
theorem bytesReplaced_hexify (value : Json) : BytesReplaced value value.hexify where
  replaced _ _ := at?_hexify_of_areBytes
  kept place found there other outside := by
    rw [at?_hexify outside, there, Option.map_some, Option.map_some, hull_hexify other]
  nothing_added place nothing := by
    by_cases inside : value.InsideByteArray place
    · exact at?_hexify_of_inside inside
    · rw [at?_hexify inside, nothing, Option.map_none]

/-- What the result of replacing arrays of bytes is follows from the value. -/
theorem BytesReplaced.unique
    {other : Json}
    (replacement : BytesReplaced value result)
    (otherReplacement : BytesReplaced value other) :
    result = other := by
  refine eq_of_hull_at?_eq fun place => ?_
  cases there : value.at? place with
  | none =>
      rw [replacement.nothing_added place there, otherReplacement.nothing_added place there]
  | some found =>
      by_cases bytes : found.IsByteArray
      · obtain ⟨numbers, areBytes, rfl⟩ := bytes
        rw [replacement.replaced place numbers areBytes there,
          otherReplacement.replaced place numbers areBytes there]
      · by_cases inside : value.InsideByteArray place
        · rw [at?_eq_none_of_inside replacement.replaced inside,
            at?_eq_none_of_inside otherReplacement.replaced inside]
        · rw [replacement.kept place found there bytes inside,
            otherReplacement.kept place found there bytes inside]

/-- No byte array is left after rewriting. -/
theorem freeOfByteArrays_hexify (value : Json) : value.hexify.FreeOfByteArrays := by
  intro place found there
  by_cases inside : value.InsideByteArray place
  · rw [at?_hexify_of_inside inside] at there
    exact nomatch there
  · rw [at?_hexify inside] at there
    obtain ⟨original, -, rfl⟩ := Option.map_eq_some_iff.mp there
    exact not_isByteArray_hexify original

/-- A value without arrays of bytes is its own result. -/
theorem FreeOfByteArrays.bytesReplaced_self (free : value.FreeOfByteArrays) :
    BytesReplaced value value where
  replaced place numbers areBytes there := absurd ⟨numbers, areBytes, rfl⟩ (free place _ there)
  kept _ _ there _ _ := congrArg (Option.map hull) there
  nothing_added _ nothing := nothing

/-- A value stays as it is exactly where it holds no array of bytes. -/
theorem hexify_eq_self_iff : value.hexify = value ↔ value.FreeOfByteArrays :=
  ⟨fun same => same ▸ freeOfByteArrays_hexify value,
    fun free => (bytesReplaced_hexify value).unique free.bytesReplaced_self⟩

/-- Each array of 20 or 32 bytes is replaced by its text, at whatever depth it stands, and nothing
else happens: no such array is left, all else stays in its place, and to do it again changes
nothing. -/
theorem hexify_rewrites_bytes_only (value : Json) :
    value.hexify.FreeOfByteArrays ∧
      (∀ result, BytesReplaced value result ↔ result = value.hexify) ∧
      value.hexify.hexify = value.hexify := by
  refine ⟨freeOfByteArrays_hexify value, fun result => ⟨fun replacement => ?_, ?_⟩, ?_⟩
  · exact replacement.unique (bytesReplaced_hexify value)
  · rintro rfl
    exact bytesReplaced_hexify value
  · exact hexify_eq_self_iff.mpr (freeOfByteArrays_hexify value)

example :
    hexify (.object [
      ("node", .array [.array (List.replicate 20 (ofNat 171)), .null]),
      ("weights", .array (List.replicate 20 (ofNat 256)))]) =
    .object [
      ("node", .array [.string "0xabababababababababababababababababababab", .null]),
      ("weights", .array (List.replicate 20 (ofNat 256)))] := by
  rfl

end Json
end Valset
