import Valset.Proofs.Contract.RoundTrip
import Valset.Proofs.Event.Recognition

/-!
# Fields of events

In an event whose fields hold values of their types, each field is found by its name, and what is
taken from it is the whole value of the field.
-/

namespace Valset

namespace AbiValue

variable
  {value : AbiValue}

theorem exists_ofFixed_of_admits
    {width : Nat}
    (admits : (AbiType.fixedBytes width).Admits value) :
    ∃ fixed : FixedBytes width, value = .ofFixed fixed := by
  cases admits with
  | @fixedBytes bytes _ _ => exact ⟨⟨bytes, rfl⟩, rfl⟩

theorem exists_uint_of_admits
    {bits : Nat}
    (admits : (AbiType.uint bits).Admits value) :
    ∃ number, value = .uint number ∧ number.toNat < 2 ^ bits := by
  cases admits with
  | @uint _ number fits => exact ⟨number, rfl, fits⟩

theorem exists_ofUInt64_of_admits (admits : (AbiType.uint 64).Admits value) :
    ∃ number, value = .ofUInt64 number := by
  obtain ⟨number, rfl, fits⟩ := exists_uint_of_admits admits
  refine ⟨UInt64.ofNat number.toNat, ?_⟩
  rw [ofUInt64, UInt64.toNat_ofNat', Nat.mod_eq_of_lt fits, BitVec.ofNat_toNat,
    BitVec.setWidth_eq]

end AbiValue

namespace Event

open AbiValue

variable
  {event : Event}
  {name : String}
  {field : EventField}

theorem exists_lookup
    {fields : List EventField}
    {values : List AbiValue}
    (admits : AbiType.AdmitsAll (fields.map (·.type)) values)
    (found : fields.find? (·.name == name) = some field) :
    ∃ value, ((fields.map (·.name)).zip values).lookup name = some value ∧
      field.type.Admits value := by
  induction fields generalizing values with
  | nil => exact nomatch found
  | cons other fields inductionHypothesis =>
      cases admits with
      | @cons _ value _ values first rest =>
          rw [List.find?_cons] at found
          rw [List.map_cons, List.zip_cons_cons, List.lookup_cons]
          cases named : other.name == name with
          | true =>
              rw [named] at found
              obtain rfl := Option.some.inj found
              rw [beq_iff_eq.mp named, beq_self_eq_true]
              exact ⟨value, rfl, first⟩
          | false =>
              rw [named] at found
              rw [show (name == other.name) = false by rwa [BEq.comm]]
              exact inductionHypothesis rest found

/-- A field of an event is found by its name and holds a value of its type. -/
theorem Proper.exists_value?
    (proper : event.Proper)
    (found : event.kind.fields.find? (·.name == name) = some field) :
    ∃ value, event.value? name = some value ∧ field.type.Admits value :=
  exists_lookup proper found

/-- A 32-byte identifier is taken as it stands in its field. -/
theorem Proper.exists_id?
    (kind : IdKind)
    (proper : event.Proper)
    (found : event.kind.fields.find? (·.name == name) = some field)
    (typed : field.type = .fixedBytes 32) :
    ∃ id : Id kind, event.id? name = some id ∧ event.value? name = some (.ofFixed id.hash) := by
  obtain ⟨value, held, admits⟩ := proper.exists_value? found
  obtain ⟨hash, rfl⟩ := exists_ofFixed_of_admits (typed ▸ admits)
  refine ⟨⟨hash⟩, ?_, held⟩
  rw [id?, held]
  simp

/-- A 64-bit number is taken as it stands in its field. -/
theorem Proper.exists_uint64?
    (proper : event.Proper)
    (found : event.kind.fields.find? (·.name == name) = some field)
    (typed : field.type = .uint 64) :
    ∃ number, event.uint64? name = some number ∧
      event.value? name = some (.ofUInt64 number) := by
  obtain ⟨value, held, admits⟩ := proper.exists_value? found
  obtain ⟨number, rfl⟩ := exists_ofUInt64_of_admits (typed ▸ admits)
  refine ⟨number, ?_, held⟩
  rw [uint64?, held]
  simp

/-- A number is taken as it stands in its field. -/
theorem Proper.exists_uint?
    (proper : event.Proper)
    (found : event.kind.fields.find? (·.name == name) = some field)
    (typed : field.type = .uint 256) :
    ∃ number, event.uint? name = some number ∧ event.value? name = some (.uint number) := by
  obtain ⟨value, held, admits⟩ := proper.exists_value? found
  obtain ⟨number, rfl, -⟩ := exists_uint_of_admits (typed ▸ admits)
  refine ⟨number, ?_, held⟩
  rw [uint?, held]
  rfl

end Event
end Valset
