import Valset.Number.Double

/-!
# JSON values

Numbers are whole numbers in the range of 64 bits or doubles. An object keeps its fields in the
order in which they stand in the text, a repeated key included; `canonical` is the value with each
key once, in ascending order.
-/

namespace Valset
namespace Json

/-- A number: whole as long as it fits into 64 bits with or without sign. -/
inductive Number
  | whole (value : Int)
  | double (value : Double)
deriving DecidableEq

end Json

/-- A JSON value. -/
inductive Json
  | null
  | bool (value : Bool)
  | number (value : Json.Number)
  | string (value : String)
  | array (items : List Json)
  | object (fields : List (String × Json))
deriving Inhabited

namespace Json

/-- A whole number. -/
def ofNat (value : Nat) : Json :=
  .number (.whole value)

/-- A 64-bit number. -/
def ofUInt64 (value : UInt64) : Json :=
  ofNat value.toNat

/-- A text or nothing. -/
def ofOption (value : Option Json) : Json :=
  value.getD .null

/-- The value under a key; the last one counts when the key is repeated. -/
def field? (fields : List (String × Json)) (key : String) : Option Json :=
  (fields.reverse.find? (·.1 == key)).map (·.2)

/-- The value under a key of an object. -/
def get? : Json → String → Option Json
  | .object fields, key => field? fields key
  | _, _ => none

/-- The order of texts by their code points. -/
def keyLt (left right : String) : Bool :=
  left < right

/-- Puts a field into an ascending list of fields, in place of one with the same key. -/
def insertField (key : String) (value : Json) : List (String × Json) → List (String × Json)
  | [] => [(key, value)]
  | (other, old) :: rest =>
    if key = other then (key, value) :: rest
    else if keyLt key other then (key, value) :: (other, old) :: rest
    else (other, old) :: insertField key value rest

mutual

/-- The same value with each key of an object once, in ascending order. -/
def canonical : Json → Json
  | .array items => .array (canonicalItems items)
  | .object fields => .object (canonicalFields fields [])
  | other => other

/-- `canonical` for each item. -/
def canonicalItems : List Json → List Json
  | [] => []
  | item :: rest => canonical item :: canonicalItems rest

/-- Puts fields one after the other into an ascending list. -/
def canonicalFields : List (String × Json) → List (String × Json) → List (String × Json)
  | [], done => done
  | (key, value) :: rest, done => canonicalFields rest (insertField key (canonical value) done)

end

end Json
end Valset
