import Valset.Toml.Parser

/-!
# TOML documents

The table that statements build. A table is defined once: by a header, by keys with dots, or within
a line. One that was only named on the way to another one may still get a header of its own, and one
that keys with dots made may get further fields by such keys.
-/

namespace Valset
namespace Toml

/-- How a table came about. -/
inductive Origin
  | header
  | implied
  | dotted
deriving DecidableEq, Repr

/-- A value while a document is read. -/
inductive Node
  | value (value : Toml)
  | table (origin : Origin) (fields : List (String × Node))
  | tables (items : List (List (String × Node)))

namespace Node

mutual

/-- The finished value. -/
def finish : Node → Toml
  | .value finished => finished
  | .table _ fields => .table (finishFields fields)
  | .tables items => .array (finishItems items)

/-- The finished fields of a table. -/
def finishFields : List (String × Node) → List (String × Toml)
  | [] => []
  | (key, node) :: rest => (key, finish node) :: finishFields rest

/-- The finished tables of an array. -/
def finishItems : List (List (String × Node)) → List Toml
  | [] => []
  | fields :: rest => .table (finishFields fields) :: finishItems rest

end

end Node

/-- A table while a document is read. -/
structure Section where
  origin : Origin
  fields : List (String × Node)

namespace Section

/-- The table of a document before its first statement. -/
def root : Section :=
  ⟨.header, []⟩

/-- What stands under a key. -/
def get? (table : Section) (key : String) : Option Node :=
  table.fields.lookup key

/-- Puts a node under a key: in place of what stood there, or at the end. -/
def set (table : Section) (key : String) (node : Node) : Section :=
  if (table.get? key).isSome then
    { table with
      fields := table.fields.map fun field => if field.1 == key then (key, node) else field }
  else { table with fields := table.fields ++ [(key, node)] }

/-- Changes the table to which a path leads; tables that are missing on the way are made. The path
of keys with dots does not lead through a table that has a header. -/
def within (dotted : Bool) (change : Section → Option Section) :
    (path : List String) → Section → Option Section
  | [], here => change here
  | key :: rest, here =>
    match here.get? key with
    | none => do
      let child ← within dotted change rest ⟨if dotted then .dotted else .implied, []⟩
      return here.set key (.table child.origin child.fields)
    | some (.value _) => none
    | some (.table origin fields) =>
      if dotted ∧ origin = .header then none
      else do
        let child ← within dotted change rest ⟨origin, fields⟩
        return here.set key (.table child.origin child.fields)
    | some (.tables items) => do
      let child ← within dotted change rest ⟨.header, ← items.getLast?⟩
      return here.set key (.tables (items.dropLast ++ [child.fields]))

/-- Adds a field under a new key. -/
def add (table : Section) (key : String) (value : Toml) : Option Section :=
  if (table.get? key).isSome then none else some (table.set key (.value value))

/-- Adds a pair. Where its key has dots, only a table that such keys made takes it. -/
def addPair (table : Section) (pair : Pair) : Option Section :=
  within true (fun target =>
    if (target.origin = .dotted) ↔ pair.path = [] then none else target.add pair.key pair.value)
    pair.path table

/-- Opens the table of a header. -/
def openTable (key : String) (parent : Section) : Option Section :=
  match parent.get? key with
  | none => some (parent.set key (.table .header []))
  | some (.table .implied fields) => some (parent.set key (.table .header fields))
  | some _ => none

/-- Opens a further table of an array. -/
def openItem (key : String) (parent : Section) : Option Section :=
  match parent.get? key with
  | none => some (parent.set key (.tables [[]]))
  | some (.tables items) => some (parent.set key (.tables (items ++ [[]])))
  | some _ => none

end Section

/-- The table of an inline table from its fields. -/
def assemble (pairs : List Pair) : Option Toml := do
  let table ← pairs.foldlM Section.addPair .root
  return (Node.table table.origin table.fields).finish

/-- A document up to some statement, and the path of the table that takes the next pair. -/
structure Draft where
  root : Section
  path : List String

/-- Goes on with a statement. -/
def Draft.add (draft : Draft) : Statement → Option Draft
  | .pair pair => do
    let root ← Section.within false (fun table => table.addPair pair) draft.path draft.root
    return { draft with root }
  | .table path key => do
    let root ← Section.within false (Section.openTable key) path draft.root
    return ⟨root, path ++ [key]⟩
  | .item path key => do
    let root ← Section.within false (Section.openItem key) path draft.root
    return ⟨root, path ++ [key]⟩

/-- The characters of a text without a mark of their order in front. -/
def dropOrderMark : List Char → List Char
  | c :: rest => if c.toNat = 0xfeff then rest else c :: rest
  | [] => []

/-- The fields of the table that a text stands for. -/
def parse? (text : String) : Option (List (String × Toml)) := do
  let chars := dropOrderMark text.toList
  let statements ← takeStatements assemble (chars.length + 1) chars
  let draft ← statements.foldlM Draft.add ⟨.root, []⟩
  return Node.finishFields draft.root.fields

end Toml
end Valset
