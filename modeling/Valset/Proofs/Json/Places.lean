import Mathlib.Data.List.Basic
import Valset.Json

/-!
# Places in JSON values

A place leads into a value from child to child. What a value shows without its children is its hull,
and a value is known from the hulls at all its places.
-/

namespace Valset
namespace Json

/-- The items of an array or the values of an object, in their order. -/
def children : Json → List Json
  | .array items => items
  | .object fields => fields.map (·.2)
  | _ => []

/-- A value without its children: of an array only how many items it has, of an object only its
keys in their order, and of any other value the value itself. -/
def hull : Json → Json
  | .array items => .array (items.map fun _ => .null)
  | .object fields => .object (fields.map fun field => (field.1, .null))
  | other => other

/-- What stands at a place, which says for each level the child to go to. -/
def at? : Json → List Nat → Option Json
  | value, [] => some value
  | value, index :: place => value.children[index]?.bind (·.at? place)

variable
  {value first second : Json}

/-! ## Children -/

theorem sizeOf_lt_of_mem_children
    {child : Json}
    (present : child ∈ value.children) :
    sizeOf child < sizeOf value := by
  cases value with
  | null | bool | number | string => exact nomatch present
  | array items =>
      have smaller : sizeOf child < sizeOf items := List.sizeOf_lt_of_mem present
      rw [array.sizeOf_spec]
      omega
  | object fields =>
      obtain ⟨field, among, rfl⟩ := List.mem_map.mp present
      have smaller : sizeOf field < sizeOf fields := List.sizeOf_lt_of_mem among
      have parts : sizeOf field = 1 + sizeOf field.1 + sizeOf field.2 := Prod.mk.sizeOf_spec _ _
      rw [object.sizeOf_spec]
      omega

/-- What follows for a value from its children holds for all values. -/
@[elab_as_elim]
theorem induction_on_children
    {motive : Json → Prop}
    (value : Json)
    (step : ∀ value : Json, (∀ child ∈ value.children, motive child) → motive value) :
    motive value :=
  step value fun child present =>
    have := sizeOf_lt_of_mem_children present
    induction_on_children child step
termination_by sizeOf value

/-- Keys and values, each in their order, make up the fields. -/
theorem fields_eq_of_map_eq
    {fields others : List (String × Json)}
    (keys : fields.map (·.1) = others.map (·.1))
    (values : fields.map (·.2) = others.map (·.2)) :
    fields = others :=
  (List.zip_of_prod keys values).trans (List.zip_of_prod rfl rfl).symm

theorem keys_eq_of_hull_eq
    {fields others : List (String × Json)}
    (hulls : (object fields).hull = (object others).hull) :
    fields.map (·.1) = others.map (·.1) := by
  have blanked := congrArg (List.map (·.1)) (object.inj hulls)
  rwa [List.map_map, List.map_map] at blanked

theorem eq_of_hull_eq_of_children_eq
    (hulls : first.hull = second.hull)
    (same : first.children = second.children) :
    first = second := by
  cases first with
  | array items =>
      cases second with
      | array others => exact congrArg array same
      | null | bool | number | string | object => cases hulls
  | object fields =>
      cases second with
      | object others =>
          exact congrArg object (fields_eq_of_map_eq (keys_eq_of_hull_eq hulls) same)
      | null | bool | number | string | array => cases hulls
  | null | bool | number | string =>
      cases second with
      | null | bool | number | string => exact hulls
      | array | object => cases hulls

/-! ## Places -/

@[simp]
theorem at?_nil (value : Json) : value.at? [] = some value := by
  rw [at?]

theorem at?_cons
    (value : Json)
    (index : Nat)
    (place : List Nat) :
    value.at? (index :: place) = value.children[index]?.bind (·.at? place) := by
  rw [at?]

theorem at?_append
    (value : Json)
    (front below : List Nat) :
    value.at? (front ++ below) = (value.at? front).bind (·.at? below) := by
  induction front generalizing value with
  | nil => rfl
  | cons index front inductionHypothesis =>
      rw [List.cons_append, at?_cons, at?_cons, Option.bind_assoc]
      exact congrArg _ (funext fun child => inductionHypothesis child)

theorem at?_cons_of_children_eq_nil
    (childless : value.children = [])
    (index : Nat)
    (place : List Nat) :
    value.at? (index :: place) = none := by
  rw [at?_cons, childless]
  rfl

/-- A value is known from what stands at its places. -/
theorem eq_of_hull_at?_eq
    (same : ∀ place, (first.at? place).map hull = (second.at? place).map hull) :
    first = second := by
  induction first using induction_on_children generalizing second with
  | step first inductionHypothesis =>
      have hulls : first.hull = second.hull := Option.some.inj (same [])
      refine eq_of_hull_eq_of_children_eq hulls (List.ext_getElem? fun index => ?_)
      have below := fun place => same (index :: place)
      simp only [at?_cons] at below
      match found : first.children[index]?, other : second.children[index]? with
      | none, none => rfl
      | some child, some otherChild =>
          rw [found, other] at below
          rw [inductionHypothesis child (List.mem_of_getElem? found) below]
      | none, some _ | some _, none => simpa [found, other] using below []

end Json
end Valset
