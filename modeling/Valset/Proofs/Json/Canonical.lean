import Mathlib.Data.List.Nodup
import Mathlib.Data.List.Perm.Basic
import Mathlib.Data.String.Basic
import Valset.Event.Record
import Valset.Proofs.Json.RoundTrip

/-!
# Canonical JSON values

A canonical value has each key of an object once, in ascending order. Making values canonical leaves
such a value as it is, and writing arrays of bytes as text keeps it canonical. Neither nests a value
deeper.
-/

namespace Valset
namespace Json

/-- Fields in ascending order of their keys, each key once. -/
def Ascending (fields : List (String × Json)) : Prop :=
  fields.Pairwise fun first second => first.1 < second.1

mutual

/-- A value with each key of an object once, in ascending order. -/
def IsCanonical : Json → Prop
  | .array items => AllCanonical items
  | .object fields => Ascending fields ∧ FieldsCanonical fields
  | _ => True

/-- Items all of which are canonical. -/
def AllCanonical : List Json → Prop
  | [] => True
  | item :: rest => IsCanonical item ∧ AllCanonical rest

/-- Fields whose values are all canonical. -/
def FieldsCanonical : List (String × Json) → Prop
  | [] => True
  | (_, value) :: rest => IsCanonical value ∧ FieldsCanonical rest

end

/-! ## Fields put into a list -/

/-- Keys are in the order of their characters. -/
theorem keyLt_iff {left right : String} : keyLt left right ↔ left < right :=
  decide_eq_true_iff

/-- A field that is put into a list stands there in place of one with its key. -/
theorem mem_insertField
    {key : String}
    {value : Json}
    {fields : List (String × Json)}
    {field : String × Json}
    (present : field ∈ insertField key value fields) :
    field = (key, value) ∨ field ∈ fields := by
  induction fields with
  | nil => exact .inl (List.mem_singleton.mp present)
  | cons first rest inductionHypothesis =>
      rw [insertField] at present
      split_ifs at present
      · exact (List.mem_cons.mp present).imp_right (List.mem_cons_of_mem _)
      · exact List.mem_cons.mp present
      · rcases List.mem_cons.mp present with rfl | inRest
        · exact .inr List.mem_cons_self
        · exact (inductionHypothesis inRest).imp_right (List.mem_cons_of_mem _)

/-- Putting a field into ascending ones keeps them ascending. -/
theorem ascending_insertField
    {fields : List (String × Json)}
    (ascending : Ascending fields)
    (key : String)
    (value : Json) :
    Ascending (insertField key value fields) := by
  induction fields with
  | nil => exact List.pairwise_singleton _ _
  | cons first rest inductionHypothesis =>
      obtain ⟨below, ascendingRest⟩ := List.pairwise_cons.mp ascending
      rw [insertField]
      split_ifs with same before
      · exact List.pairwise_cons.mpr ⟨same ▸ below, ascendingRest⟩
      · have less := keyLt_iff.mp before
        refine List.pairwise_cons.mpr ⟨?_, ascending⟩
        intro field present
        rcases List.mem_cons.mp present with rfl | inRest
        · exact less
        · exact less.trans (below field inRest)
      · have greater : first.1 < key :=
          lt_of_le_of_ne (not_lt.mp (mt keyLt_iff.mpr before)) (Ne.symm same)
        refine List.pairwise_cons.mpr ⟨?_, inductionHypothesis ascendingRest⟩
        intro field present
        rcases mem_insertField present with rfl | inRest
        · exact greater
        · exact below field inRest

/-- A field whose key is above all others goes to the end. -/
theorem insertField_of_above
    {key : String}
    {fields : List (String × Json)}
    (above : ∀ field ∈ fields, field.1 < key)
    (value : Json) :
    insertField key value fields = fields ++ [(key, value)] := by
  induction fields with
  | nil => rfl
  | cons first rest inductionHypothesis =>
      have less := above first List.mem_cons_self
      rw [insertField, if_neg less.ne', if_neg (mt keyLt_iff.mp less.not_gt),
        inductionHypothesis fun field present => above field (List.mem_cons_of_mem _ present)]
      rfl

theorem lookup_cons_eq_ite
    (field : String × Json)
    (fields : List (String × Json))
    (name : String) :
    (field :: fields).lookup name =
      if name = field.1 then some field.2 else fields.lookup name := by
  rw [List.lookup_cons]
  split_ifs with same
  · rw [same, beq_self_eq_true]
  · rw [beq_false_of_ne same]

/-- A field that is put into a list is found under its key, and the others as before. -/
theorem lookup_insertField
    (key : String)
    (value : Json)
    (fields : List (String × Json))
    (name : String) :
    (insertField key value fields).lookup name =
      if name = key then some value else fields.lookup name := by
  induction fields with
  | nil => exact lookup_cons_eq_ite (key, value) [] name
  | cons first rest inductionHypothesis =>
      rw [insertField]
      split
      · rename_i taken
        rw [lookup_cons_eq_ite, lookup_cons_eq_ite, taken]
        split <;> rfl
      · split
        · exact lookup_cons_eq_ite (key, value) (first :: rest) name
        · rename_i taken _
          rw [lookup_cons_eq_ite, lookup_cons_eq_ite, inductionHypothesis]
          split_ifs with atFirst atKey
          · exact absurd (atKey.symm.trans atFirst) taken
          · rfl
          · rfl
          · rfl

theorem insertField_cons
    (key : String)
    (value : Json)
    (field : String × Json)
    (fields : List (String × Json)) :
    insertField key value (field :: fields) =
      if key = field.1 then (key, value) :: fields
      else if key < field.1 then (key, value) :: field :: fields
      else field :: insertField key value fields := by
  rw [insertField]
  simp only [keyLt_iff]

/-- Fields with different keys may be put into a list in either order. -/
theorem insertField_comm
    {first second : String}
    (differ : first ≠ second)
    (value other : Json)
    (fields : List (String × Json)) :
    insertField first value (insertField second other fields) =
      insertField second other (insertField first value fields) := by
  have either := lt_or_gt_of_ne differ
  induction fields with
  | nil =>
      have single : ∀ key value, insertField key value [] = [(key, value)] := fun _ _ => rfl
      grind [insertField_cons]
  | cons field fields inductionHypothesis =>
      have firstPlace := lt_trichotomy first field.1
      have secondPlace := lt_trichotomy second field.1
      grind [insertField_cons]

/-! ## Values made canonical -/

/-- Fields are in canonical form if each of their values is. -/
theorem fieldsCanonical_iff {fields : List (String × Json)} :
    FieldsCanonical fields ↔ ∀ field ∈ fields, IsCanonical field.2 := by
  induction fields with
  | nil => simp [FieldsCanonical]
  | cons field rest inductionHypothesis => simp [FieldsCanonical, inductionHypothesis]

/-- Putting a canonical value into canonical fields keeps them so. -/
theorem fieldsCanonical_insertField
    {key : String}
    {value : Json}
    {fields : List (String × Json)}
    (canonical : FieldsCanonical fields)
    (valueCanonical : IsCanonical value) :
    FieldsCanonical (insertField key value fields) := by
  rw [fieldsCanonical_iff] at canonical ⊢
  intro field present
  rcases mem_insertField present with rfl | inFields
  · exact valueCanonical
  · exact canonical field inFields

mutual

/-- The canonical form of a value is canonical. -/
theorem isCanonical_canonical (value : Json) : IsCanonical value.canonical := by
  match value with
  | .null | .bool _ | .number _ | .string _ => trivial
  | .array items => exact allCanonical_canonicalItems items
  | .object fields =>
      exact isCanonical_canonicalFields fields List.Pairwise.nil trivial

theorem allCanonical_canonicalItems (items : List Json) :
    AllCanonical (canonicalItems items) := by
  match items with
  | [] => trivial
  | item :: rest => exact ⟨isCanonical_canonical item, allCanonical_canonicalItems rest⟩

theorem isCanonical_canonicalFields
    (fields : List (String × Json))
    {done : List (String × Json)}
    (ascending : Ascending done)
    (canonical : FieldsCanonical done) :
    IsCanonical (.object (canonicalFields fields done)) := by
  match fields with
  | [] => exact ⟨ascending, canonical⟩
  | (key, value) :: rest =>
      exact isCanonical_canonicalFields rest (ascending_insertField ascending key _)
        (fieldsCanonical_insertField canonical (isCanonical_canonical value))

end

/-- Fields that are put into a list leave the value of another key as it was. -/
theorem lookup_canonicalFields_of_notMem
    {fields : List (String × Json)}
    {name : String}
    (absent : name ∉ fields.map (·.1))
    (done : List (String × Json)) :
    (canonicalFields fields done).lookup name = done.lookup name := by
  induction fields generalizing done with
  | nil => rfl
  | cons field rest inductionHypothesis =>
      obtain ⟨other, absentRest⟩ := not_or.mp (mt List.mem_cons.mpr absent)
      rw [canonicalFields, inductionHypothesis absentRest, lookup_insertField, if_neg other]

/-- Where no key is repeated, each of the fields is found under its key. -/
theorem lookup_canonicalFields
    {fields : List (String × Json)}
    (distinct : (fields.map (·.1)).Nodup)
    {name : String}
    (done : List (String × Json)) :
    (canonicalFields fields done).lookup name =
      ((fields.lookup name).map canonical).or (done.lookup name) := by
  induction fields generalizing done with
  | nil => rfl
  | cons field rest inductionHypothesis =>
      obtain ⟨notInRest, distinctRest⟩ := List.nodup_cons.mp distinct
      rw [canonicalFields, lookup_cons_eq_ite]
      by_cases same : name = field.1
      · obtain rfl := same
        rw [lookup_canonicalFields_of_notMem notInRest, lookup_insertField, if_pos rfl, if_pos rfl]
        rfl
      · rw [inductionHypothesis distinctRest, lookup_insertField, if_neg same, if_neg same]

/-- A field with its value made canonical. -/
def canonicalField (field : String × Json) : String × Json :=
  (field.1, field.2.canonical)

/-- Fields are put in their canonical order one after the other. -/
theorem canonicalFields_eq_foldl (fields done : List (String × Json)) :
    canonicalFields fields done =
      (fields.map canonicalField).foldl (fun done field => insertField field.1 field.2 done)
        done := by
  induction fields generalizing done with
  | nil => rfl
  | cons field fields inductionHypothesis => exact inductionHypothesis _

/-- The order of fields without repeated keys does not matter. -/
theorem canonicalFields_of_perm
    {fields others : List (String × Json)}
    (distinct : (fields.map Prod.fst).Nodup)
    (same : (fields.map canonicalField).Perm (others.map canonicalField))
    (done : List (String × Json)) :
    canonicalFields fields done = canonicalFields others done := by
  rw [canonicalFields_eq_foldl, canonicalFields_eq_foldl]
  have keys : ((fields.map canonicalField).map Prod.fst).Nodup := by
    rw [List.map_map]
    exact distinct
  refine same.foldl_eq' (fun first isFirst second isSecond list => ?_) done
  by_cases differ : first.1 = second.1
  · rw [List.inj_on_of_nodup_map keys isFirst isSecond differ]
  · exact (insertField_comm differ first.2 second.2 list).symm

mutual

/-- A canonical value is left as it is. -/
theorem canonical_eq_self
    {value : Json}
    (canonical : IsCanonical value) :
    value.canonical = value := by
  match value with
  | .null | .bool _ | .number _ | .string _ => rfl
  | .array items => rw [Json.canonical, canonicalItems_eq_self canonical]
  | .object fields =>
      have unchanged := @canonicalFields_eq_append [] fields canonical.1 canonical.2
      rw [Json.canonical, unchanged, List.nil_append]

/-- Canonical items are their own canonical form. -/
theorem canonicalItems_eq_self
    {items : List Json}
    (canonical : AllCanonical items) :
    canonicalItems items = items := by
  match items with
  | [] => rfl
  | item :: rest =>
      rw [canonicalItems, canonical_eq_self canonical.1, canonicalItems_eq_self canonical.2]

/-- Ascending fields go one behind the other. -/
theorem canonicalFields_eq_append
    {done fields : List (String × Json)}
    (ascending : Ascending (done ++ fields))
    (canonical : FieldsCanonical fields) :
    canonicalFields fields done = done ++ fields := by
  match fields with
  | [] => rw [canonicalFields, List.append_nil]
  | (key, value) :: rest =>
      have above : ∀ field ∈ done, field.1 < key := fun field present =>
        (List.pairwise_append.mp ascending).2.2 field present (key, value) List.mem_cons_self
      have rearranged : done ++ (key, value) :: rest = (done ++ [(key, value)]) ++ rest := by simp
      rw [rearranged] at ascending ⊢
      rw [canonicalFields, canonical_eq_self canonical.1, insertField_of_above above,
        canonicalFields_eq_append ascending canonical.2]

end

/-! ## Bytes as text -/

theorem map_fst_hexifyFields (fields : List (String × Json)) :
    (hexifyFields fields).map (·.1) = fields.map (·.1) := by
  induction fields with
  | nil => rfl
  | cons field rest inductionHypothesis => simp [hexifyFields, inductionHypothesis]

/-- Writing byte arrays in hexadecimal keeps the order of fields. -/
theorem ascending_hexifyFields
    {fields : List (String × Json)}
    (ascending : Ascending fields) :
    Ascending (hexifyFields fields) := by
  have keys : (fields.map (·.1)).Pairwise (· < ·) := List.pairwise_map.mpr ascending
  rw [← map_fst_hexifyFields] at keys
  exact List.pairwise_map.mp keys

/-- Writing byte arrays in hexadecimal keeps the fields at their keys. -/
theorem lookup_hexifyFields
    (fields : List (String × Json))
    (name : String) :
    (hexifyFields fields).lookup name = (fields.lookup name).map hexify := by
  induction fields with
  | nil => rfl
  | cons field rest inductionHypothesis =>
      rw [hexifyFields, List.lookup_cons, List.lookup_cons, inductionHypothesis]
      cases name == field.1 <;> rfl

mutual

/-- A canonical value stays canonical when its arrays of bytes become texts. -/
theorem isCanonical_hexify
    {value : Json}
    (canonical : IsCanonical value) :
    IsCanonical value.hexify := by
  match value with
  | .null | .bool _ | .number _ | .string _ => trivial
  | .array items =>
      rw [hexify]
      split
      · trivial
      · exact allCanonical_hexifyItems canonical
  | .object fields =>
      exact ⟨ascending_hexifyFields canonical.1, fieldsCanonical_hexifyFields canonical.2⟩

theorem allCanonical_hexifyItems
    {items : List Json}
    (canonical : AllCanonical items) :
    AllCanonical (hexifyItems items) := by
  match items with
  | [] => trivial
  | item :: rest =>
      exact ⟨isCanonical_hexify canonical.1, allCanonical_hexifyItems canonical.2⟩

theorem fieldsCanonical_hexifyFields
    {fields : List (String × Json)}
    (canonical : FieldsCanonical fields) :
    FieldsCanonical (hexifyFields fields) := by
  match fields with
  | [] => trivial
  | (_, value) :: rest =>
      exact ⟨isCanonical_hexify canonical.1, fieldsCanonical_hexifyFields canonical.2⟩

end

/-! ## Depth -/

mutual

/-- How many containers stand inside each other at most. -/
def depth : Json → Nat
  | .array items => depthOfItems items + 1
  | .object fields => depthOfFields fields + 1
  | _ => 0

/-- The largest depth of items. -/
def depthOfItems : List Json → Nat
  | [] => 0
  | item :: rest => max item.depth (depthOfItems rest)

/-- The largest depth of the values of fields. -/
def depthOfFields : List (String × Json) → Nat
  | [] => 0
  | (_, value) :: rest => max value.depth (depthOfFields rest)

end

mutual

/-- The numbers in a value, in the order in which they are written. -/
def numbers : Json → List Number
  | .number value => [value]
  | .array items => numbersOfItems items
  | .object fields => numbersOfFields fields
  | _ => []

/-- The numbers in items. -/
def numbersOfItems : List Json → List Number
  | [] => []
  | item :: rest => item.numbers ++ numbersOfItems rest

/-- The numbers in the values of fields. -/
def numbersOfFields : List (String × Json) → List Number
  | [] => []
  | (_, value) :: rest => value.numbers ++ numbersOfFields rest

end

mutual

/-- A value whose numbers are whole is read back unless it is nested too deep. -/
theorem readable_of_depth_le
    {depth : Nat}
    {value : Json}
    (shallow : value.depth ≤ depth)
    (whole : ∀ number ∈ value.numbers, number.Exact) :
    value.Readable depth := by
  match value, depth with
  | .null, _ | .bool _, _ | .string _, _ => trivial
  | .number value, _ => exact whole value (List.mem_singleton_self value)
  | .array items, 0 | .object fields, 0 => exact absurd shallow (Nat.not_succ_le_zero _)
  | .array items, depth + 1 =>
      exact readableItems_of_depth_le (Nat.le_of_succ_le_succ shallow) whole
  | .object fields, depth + 1 =>
      exact readableFields_of_depth_le (Nat.le_of_succ_le_succ shallow) whole

/-- Items that are no deeper than a bound are readable within it. -/
theorem readableItems_of_depth_le
    {depth : Nat}
    {items : List Json}
    (shallow : depthOfItems items ≤ depth)
    (whole : ∀ number ∈ numbersOfItems items, number.Exact) :
    ReadableItems depth items := by
  match items with
  | [] => trivial
  | item :: rest =>
      obtain ⟨shallowItem, shallowRest⟩ := max_le_iff.mp shallow
      obtain ⟨wholeItem, wholeRest⟩ := List.forall_mem_append.mp whole
      exact ⟨readable_of_depth_le shallowItem wholeItem,
        readableItems_of_depth_le shallowRest wholeRest⟩

/-- Fields that are no deeper than a bound are readable within it. -/
theorem readableFields_of_depth_le
    {depth : Nat}
    {fields : List (String × Json)}
    (shallow : depthOfFields fields ≤ depth)
    (whole : ∀ number ∈ numbersOfFields fields, number.Exact) :
    ReadableFields depth fields := by
  match fields with
  | [] => trivial
  | (_, value) :: rest =>
      obtain ⟨shallowValue, shallowRest⟩ := max_le_iff.mp shallow
      obtain ⟨wholeValue, wholeRest⟩ := List.forall_mem_append.mp whole
      exact ⟨readable_of_depth_le shallowValue wholeValue,
        readableFields_of_depth_le shallowRest wholeRest⟩

end

/-- Putting a readable value into readable fields keeps them so. -/
theorem readableFields_insertField
    {depth : Nat}
    {key : String}
    {value : Json}
    {fields : List (String × Json)}
    (readable : ReadableFields depth fields)
    (valueReadable : Readable depth value) :
    ReadableFields depth (insertField key value fields) := by
  rw [readableFields_iff] at readable ⊢
  intro field present
  rcases mem_insertField present with rfl | inFields
  · exact valueReadable
  · exact readable field inFields

mutual

/-- A value that is made canonical is not nested deeper. -/
theorem readable_canonical
    {depth : Nat}
    {value : Json}
    (readable : value.Readable depth) :
    value.canonical.Readable depth := by
  match value, depth, readable with
  | .null, _, _ | .bool _, _, _ | .string _, _, _ => trivial
  | .number _, _, readable => exact readable
  | .array items, depth + 1, readable => exact readableItems_canonicalItems readable
  | .object fields, depth + 1, readable =>
      exact @readableFields_canonicalFields depth fields [] readable trivial

/-- The canonical form of readable items is readable. -/
theorem readableItems_canonicalItems
    {depth : Nat}
    {items : List Json}
    (readable : ReadableItems depth items) :
    ReadableItems depth (canonicalItems items) := by
  match items, readable with
  | [], _ => trivial
  | item :: rest, readable =>
      exact ⟨readable_canonical readable.1, readableItems_canonicalItems readable.2⟩

/-- The canonical form of readable fields is readable. -/
theorem readableFields_canonicalFields
    {depth : Nat}
    {fields done : List (String × Json)}
    (readable : ReadableFields depth fields)
    (doneReadable : ReadableFields depth done) :
    ReadableFields depth (canonicalFields fields done) := by
  match fields, readable with
  | [], _ => exact doneReadable
  | (_, value) :: rest, readable =>
      rw [canonicalFields]
      exact readableFields_canonicalFields readable.2
        (readableFields_insertField doneReadable (readable_canonical readable.1))

end

mutual

/-- A value whose arrays of bytes become texts is not nested deeper. -/
theorem readable_hexify
    {depth : Nat}
    {value : Json}
    (readable : value.Readable depth) :
    value.hexify.Readable depth := by
  match value, depth, readable with
  | .null, _, _ | .bool _, _, _ | .string _, _, _ => trivial
  | .number _, _, readable => exact readable
  | .array items, depth + 1, readable =>
      rw [hexify]
      split
      · trivial
      · exact readableItems_hexifyItems readable
  | .object fields, depth + 1, readable => exact readableFields_hexifyFields readable

/-- Readable items stay so when byte arrays in them are written in hexadecimal. -/
theorem readableItems_hexifyItems
    {depth : Nat}
    {items : List Json}
    (readable : ReadableItems depth items) :
    ReadableItems depth (hexifyItems items) := by
  match items, readable with
  | [], _ => trivial
  | item :: rest, readable =>
      exact ⟨readable_hexify readable.1, readableItems_hexifyItems readable.2⟩

/-- Readable fields stay so when byte arrays in them are written in hexadecimal. -/
theorem readableFields_hexifyFields
    {depth : Nat}
    {fields : List (String × Json)}
    (readable : ReadableFields depth fields) :
    ReadableFields depth (hexifyFields fields) := by
  match fields, readable with
  | [], _ => trivial
  | (_, value) :: rest, readable =>
      exact ⟨readable_hexify readable.1, readableFields_hexifyFields readable.2⟩

end

end Json
end Valset
