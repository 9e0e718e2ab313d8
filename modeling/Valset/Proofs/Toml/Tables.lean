import Mathlib.Data.List.Nodup
import Valset.Toml.Document
import Valset.Toml.Printer

/-!
# Tables while a document is read

A document changes tables at the ends of paths. A change at the end of a path leads through the
tables on the way, and changes one after the other go together. New fields go to the end of their
table.
-/

namespace Valset
namespace Toml

/-! ## Fields of a table -/

namespace Section

section Fields

variable
  {table changed : Section}
  {key other : String}
  {node : Node}
  {fields more : List (String × Node)}

theorem get?_eq_none_iff : table.get? key = none ↔ key ∉ table.fields.map Prod.fst := by
  rw [get?, List.lookup_eq_none_iff, List.mem_map]
  constructor
  · rintro absent ⟨field, present, rfl⟩
    simpa using absent field present
  · intro absent field present
    exact bne_iff_ne.mpr fun same => absent ⟨field, present, same.symm⟩

theorem lookup_map_replace
    (present : key ∈ fields.map Prod.fst)
    (node : Node) :
    (fields.map fun field => if field.1 == key then (key, node) else field).lookup key =
      some node := by
  induction fields with
  | nil => cases present
  | cons field fields inductionHypothesis =>
      rw [List.map_cons]
      by_cases same : field.1 = key
      · simp [same]
      · have later := inductionHypothesis ((List.mem_cons.mp present).resolve_left (Ne.symm same))
        rw [if_neg (by simpa using same), List.lookup_cons, beq_false_of_ne (Ne.symm same)]
        exact later

@[simp] theorem origin_set (table : Section) (key : String) (node : Node) :
    (table.set key node).origin = table.origin := by
  unfold set
  split <;> rfl

theorem set_of_new (absent : table.get? key = none) (node : Node) :
    table.set key node = { table with fields := table.fields ++ [(key, node)] } := by
  rw [set, absent]
  rfl

@[simp] theorem get?_set_self (table : Section) (key : String) (node : Node) :
    (table.set key node).get? key = some node := by
  cases held : table.get? key with
  | none =>
      rw [set_of_new held, get?, List.lookup_append]
      rw [get?] at held
      simp [held]
  | some old =>
      have present : key ∈ table.fields.map Prod.fst := by
        by_contra absent
        rw [get?_eq_none_iff.mpr absent] at held
        cases held
      rw [set, held]
      exact lookup_map_replace present node

/-- What is put under a key twice stands there as it was put last. -/
@[simp] theorem set_set (table : Section) (key : String) (first second : Node) :
    (table.set key first).set key second = table.set key second := by
  have found : ((table.set key first).get? key).isSome := by simp
  rw [set, if_pos found]
  cases held : table.get? key with
  | none =>
      have unchanged : ∀ field ∈ table.fields,
          (if field.1 == key then (key, second) else field) = field := by
        intro field present
        have different : field.1 ≠ key := fun same =>
          get?_eq_none_iff.mp held (List.mem_map.mpr ⟨field, present, same⟩)
        rw [if_neg (by simpa using different)]
      rw [set_of_new held, set_of_new held]
      simp only [List.map_append, List.map_congr_left unchanged]
      simp
  | some old =>
      rw [set, set, held]
      simp only [Option.isSome_some, if_true, List.map_map]
      congr 2
      funext field
      by_cases same : field.1 = key <;> simp [same]

end Fields

/-! ## Changes at the end of a path -/

/-- The table that a path enters through what stands under a key, and what stands there when that
table has changed. An array of tables is entered through the last of them. -/
def entered : Option Node → Option (Section × (Section → Node))
  | none => some (⟨.implied, []⟩, fun child => .table child.origin child.fields)
  | some (.value _) => none
  | some (.table origin fields) =>
    some (⟨origin, fields⟩, fun child => .table child.origin child.fields)
  | some (.tables items) => items.getLast?.map fun last =>
    (⟨.header, last⟩, fun child => .tables (items.dropLast ++ [child.fields]))

/-- A change that leaves it as it is how a table came about. -/
def KeepsOrigin (change : Section → Option Section) : Prop :=
  ∀ ⦃table changed : Section⦄, change table = some changed → changed.origin = table.origin

section Within

variable
  {first second : Section → Option Section}
  {table changed : Section}

theorem within_cons
    (change : Section → Option Section)
    (key : String)
    (path : List String)
    (table : Section) :
    within false change (key :: path) table =
      (entered (table.get? key)).bind fun entry =>
        (within false change path entry.1).map fun child => table.set key (entry.2 child) := by
  rw [Section.within]
  rcases table.get? key with _ | value | ⟨origin, fields⟩ | items
  · simp only [entered, Option.bind_some, Option.map_eq_bind]
    rfl
  · rfl
  · simp only [entered, Option.bind_some, Option.map_eq_bind]
    rfl
  · cases last : items.getLast? with
    | none => simp [entered, last]
    | some fields =>
        simp only [entered, last, Option.bind_some, Option.map_eq_bind]
        rfl

/-- A table that has been put back is entered again. -/
theorem entered_changed
    {node : Option Node}
    {child other : Section}
    {wrap : Section → Node}
    (entry : entered node = some (child, wrap))
    (sameOrigin : other.origin = child.origin) :
    entered (some (wrap other)) = some (other, wrap) := by
  rcases node with _ | value | ⟨origin, fields⟩ | items
  · obtain ⟨rfl, rfl⟩ := Prod.mk.inj (Option.some.inj entry)
    rfl
  · cases entry
  · obtain ⟨rfl, rfl⟩ := Prod.mk.inj (Option.some.inj entry)
    rfl
  · obtain ⟨last, isLast, same⟩ := Option.map_eq_some_iff.mp entry
    obtain ⟨rfl, rfl⟩ := Prod.mk.inj same
    obtain ⟨origin, fields⟩ := other
    obtain rfl : origin = .header := sameOrigin
    simp [entered]

theorem within_append
    (change : Section → Option Section)
    (path more : List String)
    (table : Section) :
    within false change (path ++ more) table =
      within false (within false change more) path table := by
  induction path generalizing table with
  | nil => rfl
  | cons key path inductionHypothesis =>
      simp only [List.cons_append, within_cons, inductionHypothesis]

/-- A change that does at least as much does so at the end of a path. -/
theorem within_mono
    (atLeast : ∀ table changed, first table = some changed → second table = some changed)
    {path : List String}
    (done : within false first path table = some changed) :
    within false second path table = some changed := by
  induction path generalizing table changed with
  | nil => exact atLeast table changed done
  | cons key path inductionHypothesis =>
      rw [within_cons] at done ⊢
      obtain ⟨entry, found, inside⟩ := Option.bind_eq_some_iff.mp done
      obtain ⟨child, within, rfl⟩ := Option.map_eq_some_iff.mp inside
      rw [found, Option.bind_some, inductionHypothesis within, Option.map_some]

theorem KeepsOrigin.within
    (keeps : KeepsOrigin first)
    (path : List String) :
    KeepsOrigin (within false first path) := by
  intro table changed done
  cases path with
  | nil => exact keeps done
  | cons key path =>
      rw [within_cons] at done
      obtain ⟨entry, -, inside⟩ := Option.bind_eq_some_iff.mp done
      obtain ⟨child, -, rfl⟩ := Option.map_eq_some_iff.mp inside
      exact origin_set ..

/-- Changes one after the other go together. -/
theorem within_bind
    (keeps : KeepsOrigin first)
    (second : Section → Option Section)
    (path : List String)
    (table : Section) :
    within false (fun table => (first table).bind second) path table =
      (within false first path table).bind (within false second path) := by
  induction path generalizing table with
  | nil => rfl
  | cons key path inductionHypothesis =>
      rw [within_cons, within_cons]
      cases found : entered (table.get? key) with
      | none => rfl
      | some entry =>
          obtain ⟨child, wrap⟩ := entry
          rw [Option.bind_some, Option.bind_some, inductionHypothesis]
          cases inside : within false first path child with
          | none => rfl
          | some other =>
              have again := entered_changed found (keeps.within path inside)
              simp [within_cons, again]

end Within

/-! ## New fields -/

/-- Puts a node under a new key of a table that keys with dots have not made. -/
def put (key : String) (node : Node) (table : Section) : Option Section :=
  if table.origin = .dotted ∨ (table.get? key).isSome then none else some (table.set key node)

/-- Puts nodes under new keys, one after the other. -/
def putAll (fields : List (String × Node)) (table : Section) : Option Section :=
  fields.foldlM (fun table field => table.put field.1 field.2) table

section New

variable
  {table changed : Section}
  {key : String}
  {node : Node}
  {fields more : List (String × Node)}

theorem put_eq_some_iff :
    put key node table = some changed ↔
      table.origin ≠ .dotted ∧ table.get? key = none ∧ changed = table.set key node := by
  unfold put
  split
  · next refused =>
    constructor
    · simp
    · rintro ⟨plain, absent, -⟩
      simp [plain, absent] at refused
  · next allowed =>
    simp only [not_or, Bool.not_eq_true, Option.isSome_eq_false_iff, Option.isNone_iff_eq_none]
      at allowed
    simp [allowed, eq_comm]

theorem keepsOrigin_put (key : String) (node : Node) : KeepsOrigin (put key node) := by
  intro table changed done
  obtain ⟨-, -, rfl⟩ := put_eq_some_iff.mp done
  exact origin_set ..

theorem putAll_append (fields more : List (String × Node)) :
    putAll (fields ++ more) = fun table => (putAll fields table).bind (putAll more) := by
  funext table
  exact List.foldlM_append ..

theorem keepsOrigin_putAll (fields : List (String × Node)) : KeepsOrigin (putAll fields) := by
  induction fields with
  | nil =>
      intro table changed done
      rw [← Option.some.inj done]
  | cons field fields inductionHypothesis =>
      intro table changed done
      obtain ⟨middle, first, rest⟩ := Option.bind_eq_some_iff.mp done
      exact (inductionHypothesis rest).trans (keepsOrigin_put _ _ first)

/-- Fields with new keys go to the end of a table in their order. -/
theorem putAll_of_new
    (plain : table.origin ≠ .dotted)
    (distinct : ((table.fields ++ fields).map Prod.fst).Nodup) :
    putAll fields table = some { table with fields := table.fields ++ fields } := by
  induction fields generalizing table with
  | nil => simp [putAll]
  | cons field fields inductionHypothesis =>
      have absent : table.get? field.1 = none := by
        rw [get?_eq_none_iff]
        rw [List.map_append, List.nodup_append] at distinct
        exact fun present => distinct.2.2 field.1 present field.1 (by simp) rfl
      have done : put field.1 field.2 table =
          some { table with fields := table.fields ++ [field] } :=
        put_eq_some_iff.mpr ⟨plain, absent, (set_of_new absent field.2).symm⟩
      have later := @inductionHypothesis { table with fields := table.fields ++ [field] } plain
        (by simpa using distinct)
      rw [putAll, List.foldlM_cons, done]
      simpa [putAll] using later

/-- A pair under a key without dots is a new field. -/
theorem addPair_eq_put (table : Section) (key : String) (value : Toml) :
    table.addPair ⟨[], key, value⟩ = put key (.value value) table := by
  unfold addPair put add
  simp only [within]
  by_cases dotted : table.origin = .dotted <;> simp [dotted]

end New

end Section

/-- A field of an inline table, under a key without dots. -/
def plainPair (field : String × Toml) : Pair :=
  ⟨[], field.1, field.2⟩

/-- A field with a finished value. -/
def valueField (field : String × Toml) : String × Node :=
  (field.1, .value field.2)

theorem foldlM_addPair (fields : List (String × Toml)) (table : Section) :
    (fields.map plainPair).foldlM Section.addPair table =
      Section.putAll (fields.map valueField) table := by
  rw [Section.putAll, List.foldlM_map, List.foldlM_map]
  congr 1
  funext table field
  exact Section.addPair_eq_put table field.1 field.2

theorem finishFields_map_valueField (fields : List (String × Toml)) :
    Node.finishFields (fields.map valueField) = fields := by
  induction fields with
  | nil => rfl
  | cons field fields inductionHypothesis =>
      rw [List.map_cons, valueField, Node.finishFields, inductionHypothesis]
      rfl

/-- Fields under different keys make up their table. -/
theorem assemble_map
    {fields : List (String × Toml)}
    (distinct : (fields.map Prod.fst).Nodup) :
    assemble (fields.map plainPair) = some (.table fields) := by
  have keys : (fields.map valueField).map Prod.fst = fields.map Prod.fst := by
    rw [List.map_map]
    rfl
  have built := @Section.putAll_of_new .root (fields.map valueField) (by decide)
    (by simpa [Section.root, keys] using distinct)
  rw [assemble, foldlM_addPair, built]
  simp [Section.root, Node.finish, finishFields_map_valueField]

end Toml
end Valset
