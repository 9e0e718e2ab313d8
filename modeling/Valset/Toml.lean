import Valset.Json

/-!
# TOML values

The values of the configuration language TOML 1.0, and their relation to JSON values.
-/

namespace Valset

/-- A TOML value. A date or time is held as its text. -/
inductive Toml
  | string (value : String)
  | integer (value : Int)
  | double (value : Double)
  | bool (value : Bool)
  | dateTime (text : String)
  | array (items : List Toml)
  | table (fields : List (String × Toml))
deriving Inhabited

namespace Toml

/-- The key under which JSON holds the text of a date or time. -/
def dateTimeKey : String := "$__toml_private_datetime"

mutual

/-- The JSON value that a value corresponds to. -/
def toJson : Toml → Json
  | .string value => .string value
  | .integer value => .number (.whole value)
  | .double value => .number (.double value)
  | .bool value => .bool value
  | .dateTime text => .object [(dateTimeKey, .string text)]
  | .array items => .array (itemsToJson items)
  | .table fields => .object (fieldsToJson fields)

/-- `toJson` for each item. -/
def itemsToJson : List Toml → List Json
  | [] => []
  | item :: rest => toJson item :: itemsToJson rest

/-- `toJson` for the value of each field. -/
def fieldsToJson : List (String × Toml) → List (String × Json)
  | [] => []
  | (key, value) :: rest => (key, toJson value) :: fieldsToJson rest

end

/-- The largest whole number of TOML. -/
def maxInteger : Int := 9223372036854775807

mutual

/-- The value that a JSON value corresponds to. Null and whole numbers above the largest one have
none. -/
def ofJson? : Json → Option Toml
  | .null => none
  | .bool value => some (.bool value)
  | .number (.whole value) => if value ≤ maxInteger then some (.integer value) else none
  | .number (.double value) => some (.double value)
  | .string value => some (.string value)
  | .array items => do return .array (← itemsOfJson? items)
  | .object fields => do return .table (← fieldsOfJson? fields)

/-- `ofJson?` for each item. -/
def itemsOfJson? : List Json → Option (List Toml)
  | [] => some []
  | item :: rest => do return (← ofJson? item) :: (← itemsOfJson? rest)

/-- `ofJson?` for the value of each field. -/
def fieldsOfJson? : List (String × Json) → Option (List (String × Toml))
  | [] => some []
  | (key, value) :: rest => do return (key, ← ofJson? value) :: (← fieldsOfJson? rest)

end

end Toml
end Valset
