import Valset.Proofs.Toml.Statements

/-!
# Tables built from statements

The statements of a table without repeated keys build it. Its fields come in the order of their
lines: those without a header first.
-/

namespace Valset
namespace Toml

/-! ## The order of the lines -/

/-- The fields that have no header. -/
def unheaded (fields : List (String × Toml)) : List (String × Toml) :=
  fields.filter fun field => !hasHeader field.2

mutual

/-- A value with the fields of its tables in the order of their lines. -/
def arranged : Toml → Toml
  | .table fields => .table (unheaded fields ++ arrangedTables fields)
  | .array items => if items.all isTable then .array (arrangedItems items) else .array items
  | value => value

/-- `arranged` for each item. -/
def arrangedItems : List Toml → List Toml
  | [] => []
  | item :: rest => arranged item :: arrangedItems rest

/-- `arranged` for the value of each field that has a header. -/
def arrangedTables : List (String × Toml) → List (String × Toml)
  | [] => []
  | (key, value) :: rest =>
    if hasHeader value then (key, arranged value) :: arrangedTables rest else arrangedTables rest

end

mutual

/-- What stands under the key of a value with a header when its statements have been read. -/
def nodeOf : Toml → Node
  | .table fields =>
    .table (if showsHeader fields then .header else .implied)
      ((unheaded fields).map valueField ++ headedNodes fields)
  | .array items => if items.all isTable then .tables (itemNodes items) else .value (.array items)
  | value => .value value

/-- The fields of each table in an array when their statements have been read. -/
def itemNodes : List Toml → List (List (String × Node))
  | [] => []
  | .table fields :: rest =>
    ((unheaded fields).map valueField ++ headedNodes fields) :: itemNodes rest
  | _ :: rest => itemNodes rest

/-- `nodeOf` for the value of each field that has a header. -/
def headedNodes : List (String × Toml) → List (String × Node)
  | [] => []
  | (key, value) :: rest =>
    if hasHeader value then (key, nodeOf value) :: headedNodes rest else headedNodes rest

end

/-- The fields of a table when its statements have been read. -/
def fieldNodes (fields : List (String × Toml)) : List (String × Node) :=
  (unheaded fields).map valueField ++ headedNodes fields

/-- Nodes are finished one by one. -/
theorem finishFields_append (fields more : List (String × Node)) :
    Node.finishFields (fields ++ more) = Node.finishFields fields ++ Node.finishFields more := by
  induction fields with
  | nil => rfl
  | cons field fields inductionHypothesis =>
      simp [Node.finishFields, inductionHypothesis]

mutual

/-- The node of a value is finished as its arrangement. -/
theorem finish_nodeOf (value : Toml) : (nodeOf value).finish = arranged value := by
  match value with
  | .table fields =>
      rw [nodeOf, arranged, Node.finish, finishFields_append, finishFields_map_valueField,
        finishFields_headedNodes fields]
  | .array items =>
      rw [nodeOf, arranged]
      split
      · next tables => rw [Node.finish, finishItems_itemNodes items tables]
      · rfl
  | .string _ => rfl
  | .integer _ => rfl
  | .double _ => rfl
  | .bool _ => rfl
  | .dateTime _ => rfl

/-- The nodes of items are finished as the arrangement of the items. -/
theorem finishItems_itemNodes
    (items : List Toml)
    (tables : items.all isTable) :
    Node.finishItems (itemNodes items) = arrangedItems items := by
  match items with
  | [] => rfl
  | .table fields :: rest =>
      have tablesRest : rest.all isTable := by simpa [isTable] using tables
      rw [itemNodes, arrangedItems, arranged, Node.finishItems, finishFields_append,
        finishFields_map_valueField, finishFields_headedNodes fields,
        finishItems_itemNodes rest tablesRest]

/-- The nodes of tables with headers are finished as the arrangement of these tables. -/
theorem finishFields_headedNodes (fields : List (String × Toml)) :
    Node.finishFields (headedNodes fields) = arrangedTables fields := by
  match fields with
  | [] => rfl
  | (key, value) :: rest =>
      rw [headedNodes, arrangedTables]
      split
      · rw [Node.finishFields, finish_nodeOf value, finishFields_headedNodes rest]
      · exact finishFields_headedNodes rest

end

/-- The fields of a table are finished in the order of their lines. -/
theorem finishFields_fieldNodes (fields : List (String × Toml)) :
    Node.finishFields (fieldNodes fields) = unheaded fields ++ arrangedTables fields := by
  rw [fieldNodes, finishFields_append, finishFields_map_valueField, finishFields_headedNodes]

/-- Nodes with headers have the keys of the fields with headers, in their order. -/
theorem map_fst_headedNodes (fields : List (String × Toml)) :
    (headedNodes fields).map Prod.fst =
      (fields.filter fun field => hasHeader field.2).map Prod.fst := by
  induction fields with
  | nil => rfl
  | cons field fields inductionHypothesis =>
      obtain ⟨key, value⟩ := field
      rw [headedNodes, List.filter_cons]
      split <;> simp [inductionHypothesis]

/-- The fields without headers and those with headers are all the fields. -/
theorem unheaded_append_perm (fields : List (String × Toml)) :
    (unheaded fields ++ fields.filter fun field => hasHeader field.2).Perm fields :=
  List.perm_append_comm.trans (List.filter_append_perm (fun field => hasHeader field.2) fields)

/-- The fields keep their keys. -/
theorem map_fst_fieldNodes_perm (fields : List (String × Toml)) :
    ((fieldNodes fields).map Prod.fst).Perm (fields.map Prod.fst) := by
  have keys : (fieldNodes fields).map Prod.fst =
      (unheaded fields ++ fields.filter fun field => hasHeader field.2).map Prod.fst := by
    rw [fieldNodes, List.map_append, List.map_append, map_fst_headedNodes, List.map_map]
    rfl
  rw [keys]
  exact (unheaded_append_perm fields).map Prod.fst

/-- Distinct keys of fields are distinct keys of nodes. -/
theorem nodup_fieldNodes
    {fields : List (String × Toml)}
    (distinct : (fields.map Prod.fst).Nodup) :
    ((fieldNodes fields).map Prod.fst).Nodup :=
  (map_fst_fieldNodes_perm fields).nodup_iff.mpr distinct

/-! ## Statements that change a table -/

open Section (within put putAll KeepsOrigin)

/-- A path that leads to a table that is there. -/
def Leads (path : List String) (root : Section) : Prop :=
  within false some path root = some root

/-- Statements that make a change at the end of a path; without any, the table must be there. -/
def Performs
    (statements : List Statement)
    (path : List String)
    (change : Section → Option Section) : Prop :=
  ∀ draft root, within false change path draft.root = some root →
    (statements = [] → Leads path draft.root) →
    ∃ last, statements.foldlM Draft.add draft = some ⟨root, last⟩

section Performing

variable
  {first second change : Section → Option Section}
  {path : List String}
  {key : String}
  {root changed table opened : Section}
  {fields : List (String × Toml)}

/-- Two changes, one after the other, at the end of a path. -/
theorem exists_of_within_bind
    (keeps : KeepsOrigin first)
    (done : within false (fun table => (first table).bind second) path root = some changed) :
    ∃ middle, within false first path root = some middle ∧
      within false second path middle = some changed := by
  rw [Section.within_bind keeps] at done
  exact Option.bind_eq_some_iff.mp done

/-- A path leads to a table that has been changed. -/
theorem leads_of_within
    (keeps : KeepsOrigin change)
    (done : within false change path root = some changed) :
    Leads path changed := by
  have again := Section.within_bind keeps some path root
  simp only [Option.bind_fun_some, done, Option.bind_some] at again
  exact again.symm

/-- The pairs below a header put their values under their keys. -/
theorem foldlM_pairs
    {draft : Draft}
    (leads : Leads draft.path draft.root)
    (done : within false (putAll (fields.map valueField)) draft.path draft.root = some root) :
    (fields.map fun field => Statement.pair (plainPair field)).foldlM Draft.add draft =
      some ⟨root, draft.path⟩ := by
  induction fields generalizing draft with
  | nil =>
      obtain rfl : draft.root = root := Option.some.inj (leads.symm.trans done)
      rfl
  | cons field fields inductionHypothesis =>
      obtain ⟨middle, put, rest⟩ := exists_of_within_bind (Section.keepsOrigin_put _ _) done
      have added : draft.add (.pair (plainPair field)) = some { draft with root := middle } := by
        have pair : (fun table : Section => table.addPair (plainPair field)) =
            Section.put (valueField field).1 (valueField field).2 :=
          funext fun table => Section.addPair_eq_put table field.1 field.2
        rw [Draft.add, pair, put]
        rfl
      rw [List.map_cons, List.foldlM_cons, added]
      exact @inductionHypothesis { draft with root := middle }
        (leads_of_within (Section.keepsOrigin_put _ _) put) rest

/-- The statements below a header put the fields of its table in place. -/
theorem exists_of_body
    {draft : Draft}
    (performs : Performs (fieldStatements draft.path fields) draft.path
      (putAll (headedNodes fields)))
    (leads : Leads draft.path draft.root)
    (done : within false (putAll (fieldNodes fields)) draft.path draft.root = some root) :
    ∃ last, (pairStatements fields ++ fieldStatements draft.path fields).foldlM Draft.add draft =
      some ⟨root, last⟩ := by
  rw [fieldNodes, Section.putAll_append] at done
  obtain ⟨middle, plain, headed⟩ := exists_of_within_bind (Section.keepsOrigin_putAll _) done
  have pairs := foldlM_pairs leads plain
  obtain ⟨last, others⟩ := performs ⟨middle, draft.path⟩ root headed fun _ =>
    leads_of_within (Section.keepsOrigin_putAll _) plain
  refine ⟨last, ?_⟩
  rw [List.foldlM_append]
  have pairsDone : (pairStatements fields).foldlM Draft.add draft = some ⟨middle, draft.path⟩ :=
    pairs
  rw [pairsDone]
  exact others

/-- A statement that opens a table below the end of a path, with those that put its fields in
place. -/
theorem performs_opening
    {statement : Statement}
    (performs : Performs (fieldStatements (path ++ [key]) fields) (path ++ [key])
      (putAll (headedNodes fields)))
    (keeps : KeepsOrigin first)
    (opens : ∀ {table opened}, first table = some opened →
      within false some [key] opened = some opened)
    (added : ∀ {draft : Draft} {opened}, within false first path draft.root = some opened →
      draft.add statement = some ⟨opened, path ++ [key]⟩) :
    Performs (statement :: (pairStatements fields ++ fieldStatements (path ++ [key]) fields)) path
      fun table => (first table).bind (within false (putAll (fieldNodes fields)) [key]) := by
  intro draft root done _
  obtain ⟨middle, opened, inside⟩ := exists_of_within_bind keeps done
  rw [← Section.within_append] at inside
  have leads : Leads (path ++ [key]) middle := by
    have unchanged : (fun table => (first table).bind (within false some [key])) = first := by
      funext table
      cases found : first table with
      | none => rfl
      | some opened => exact opens found
    have again := Section.within_bind keeps (within false some [key]) path draft.root
    rw [unchanged, opened, Option.bind_some, ← Section.within_append] at again
    exact again.symm
  obtain ⟨last, body⟩ := @exists_of_body root fields ⟨middle, path ++ [key]⟩ performs leads inside
  refine ⟨last, ?_⟩
  rw [List.foldlM_cons, added opened]
  exact body

/-- Statements that do at least as much. -/
theorem Performs.mono
    {statements : List Statement}
    (performs : Performs statements path second)
    (atLeast : ∀ {table changed}, first table = some changed → second table = some changed) :
    Performs statements path first := fun draft root done =>
  performs draft root (Section.within_mono (fun _ _ => atLeast) done)

/-- Statements that make a change further down. -/
theorem Performs.above
    {statements : List Statement}
    (performs : Performs statements (path ++ [key]) change)
    (nonempty : statements ≠ []) :
    Performs statements path (within false change [key]) := by
  intro draft root done _
  rw [← Section.within_append] at done
  exact performs draft root done fun empty => absurd empty nonempty

/-! ## Tables under new keys -/

/-- A path of one key leads to the entry at this key. -/
theorem within_singleton
    (change : Section → Option Section)
    (key : String)
    (table : Section) :
    within false change [key] table =
      (Section.entered (table.get? key)).bind fun entry =>
        (change entry.1).map fun child => table.set key (entry.2 child) := by
  rw [Section.within_cons]
  rfl

/-- Fields with different keys fill an empty table. -/
theorem putAll_empty
    {nodes : List (String × Node)}
    (distinct : (nodes.map Prod.fst).Nodup)
    {origin : Origin}
    (notDotted : origin ≠ .dotted) :
    putAll nodes ⟨origin, []⟩ = some ⟨origin, nodes⟩ :=
  @Section.putAll_of_new ⟨origin, []⟩ nodes notDotted (by simpa using distinct)

/-- A table under a new key is opened by its header, and then its fields are put in place. -/
theorem openTable_of_put
    {nodes : List (String × Node)}
    (distinct : (nodes.map Prod.fst).Nodup)
    (done : put key (.table .header nodes) table = some changed) :
    (Section.openTable key table).bind (within false (putAll nodes) [key]) = some changed := by
  obtain ⟨-, absent, rfl⟩ := Section.put_eq_some_iff.mp done
  have filled := putAll_empty distinct (by decide : Origin.header ≠ .dotted)
  rw [Section.openTable, absent]
  simp [within_singleton, Section.entered, filled]

/-- A table under a new key is there when the first of its fields is put in place. -/
theorem within_of_put
    {nodes : List (String × Node)}
    (distinct : (nodes.map Prod.fst).Nodup)
    (done : put key (.table .implied nodes) table = some changed) :
    within false (putAll nodes) [key] table = some changed := by
  obtain ⟨-, absent, rfl⟩ := Section.put_eq_some_iff.mp done
  have filled := putAll_empty distinct (by decide : Origin.implied ≠ .dotted)
  rw [within_singleton, absent]
  simp [Section.entered, filled]

/-- Puts one more table into the array under a key. -/
def extend (key : String) (nodes : List (String × Node)) (table : Section) : Option Section :=
  (Section.openItem key table).bind (within false (putAll nodes) [key])

/-- A further table of an array comes behind those that are there. -/
theorem extend_of_tables
    {nodes : List (String × Node)}
    (distinct : (nodes.map Prod.fst).Nodup)
    {items : List (List (String × Node))}
    (held : table.get? key = some (.tables items)) :
    extend key nodes table = some (table.set key (.tables (items ++ [nodes]))) := by
  have filled := putAll_empty distinct (by decide : Origin.header ≠ .dotted)
  rw [extend, Section.openItem, held]
  simp [within_singleton, Section.entered, filled]

/-- The first table of an array under a new key. -/
theorem extend_of_new
    {nodes : List (String × Node)}
    (distinct : (nodes.map Prod.fst).Nodup)
    (absent : table.get? key = none) :
    extend key nodes table = some (table.set key (.tables [nodes])) := by
  have filled := putAll_empty distinct (by decide : Origin.header ≠ .dotted)
  rw [extend, Section.openItem, absent]
  simp [within_singleton, Section.entered, filled]

/-- Puts tables into the array under a key, one after the other. -/
def extendAll (key : String) (lists : List (List (String × Node))) (table : Section) :
    Option Section :=
  lists.foldlM (fun table nodes => extend key nodes table) table

/-- Several lists of nodes are appended to an array of tables one after the other. -/
theorem extendAll_of_tables
    {lists items : List (List (String × Node))}
    (distinct : ∀ nodes ∈ lists, (nodes.map Prod.fst).Nodup) :
    extendAll key lists (table.set key (.tables items)) =
      some (table.set key (.tables (items ++ lists))) := by
  induction lists generalizing items with
  | nil => simp [extendAll]
  | cons nodes lists inductionHypothesis =>
      rw [List.forall_mem_cons] at distinct
      have first := extend_of_tables distinct.1 (Section.get?_set_self table key (.tables items))
      have others := @inductionHypothesis (items ++ [nodes]) distinct.2
      rw [extendAll, List.foldlM_cons, first, Section.set_set]
      simpa [extendAll] using others

/-- The tables of an array under a new key are put there one after the other. -/
theorem extendAll_of_put
    {lists : List (List (String × Node))}
    (nonempty : lists ≠ [])
    (distinct : ∀ nodes ∈ lists, (nodes.map Prod.fst).Nodup)
    (done : put key (.tables lists) table = some changed) :
    extendAll key lists table = some changed := by
  obtain ⟨-, absent, rfl⟩ := Section.put_eq_some_iff.mp done
  obtain ⟨nodes, lists, rfl⟩ := List.exists_cons_of_ne_nil nonempty
  rw [List.forall_mem_cons] at distinct
  rw [extendAll, List.foldlM_cons, extend_of_new distinct.1 absent]
  exact extendAll_of_tables distinct.2

/-! ## Headers -/

/-- A table that a path enters and leaves as it is. -/
theorem within_some_set
    {node : Node}
    {entry : Section × (Section → Node)}
    (entered : Section.entered (some node) = some entry)
    (back : entry.2 entry.1 = node)
    (table : Section)
    (key : String) :
    within false some [key] (table.set key node) = some (table.set key node) := by
  rw [within_singleton, Section.get?_set_self, entered]
  simp [back]

/-- A header of a table opens it and goes on there. -/
theorem add_table
    {draft : Draft}
    (opens : within false (Section.openTable key) path draft.root = some opened) :
    draft.add (.table path key) = some ⟨opened, path ++ [key]⟩ := by
  rw [Draft.add, opens]
  rfl

/-- A header of an item opens it and goes on there. -/
theorem add_item
    {draft : Draft}
    (opens : within false (Section.openItem key) path draft.root = some opened) :
    draft.add (.item path key) = some ⟨opened, path ++ [key]⟩ := by
  rw [Draft.add, opens]
  rfl

/-- A header opens a table, also one that was only named on the way to another one. -/
theorem exists_of_openTable (opens : Section.openTable key table = some opened) :
    ∃ fields, opened = table.set key (.table .header fields) := by
  unfold Section.openTable at opens
  split at opens
  · exact ⟨[], (Option.some.inj opens).symm⟩
  · next fields _ => exact ⟨fields, (Option.some.inj opens).symm⟩
  · cases opens

/-- A header opens a further table of an array. -/
theorem exists_of_openItem (opens : Section.openItem key table = some opened) :
    ∃ items, opened = table.set key (.tables (items ++ [[]])) := by
  unfold Section.openItem at opens
  split at opens
  · exact ⟨[], (Option.some.inj opens).symm⟩
  · next items _ => exact ⟨items, (Option.some.inj opens).symm⟩
  · cases opens

/-- A table that has been opened is found. -/
theorem within_some_of_openTable (opens : Section.openTable key table = some opened) :
    within false some [key] opened = some opened := by
  obtain ⟨fields, rfl⟩ := exists_of_openTable opens
  have entry : Section.entered (some (.table .header fields)) =
      some (⟨.header, fields⟩, fun child => .table child.origin child.fields) := rfl
  exact within_some_set entry rfl table key

/-- An item that has been opened is found. -/
theorem within_some_of_openItem (opens : Section.openItem key table = some opened) :
    within false some [key] opened = some opened := by
  obtain ⟨items, rfl⟩ := exists_of_openItem opens
  have entry : Section.entered (some (.tables (items ++ [[]]))) =
      some (⟨.header, []⟩, fun child => .tables (items ++ [child.fields])) := by
    simp [Section.entered]
  exact within_some_set entry rfl table key

theorem keepsOrigin_openTable (key : String) : KeepsOrigin (Section.openTable key) := by
  intro table opened opens
  obtain ⟨fields, rfl⟩ := exists_of_openTable opens
  exact Section.origin_set ..

theorem keepsOrigin_openItem (key : String) : KeepsOrigin (Section.openItem key) := by
  intro table opened opens
  obtain ⟨items, rfl⟩ := exists_of_openItem opens
  exact Section.origin_set ..

/-- Two changes one after the other keep what both keep. -/
theorem keepsOrigin_bind
    (keeps : KeepsOrigin first)
    (keepsToo : KeepsOrigin second) :
    KeepsOrigin fun table => (first table).bind second := by
  intro table changed done
  obtain ⟨middle, one, other⟩ := Option.bind_eq_some_iff.mp done
  exact (keepsToo other).trans (keeps one)

theorem keepsOrigin_extend
    (key : String)
    (nodes : List (String × Node)) :
    KeepsOrigin (extend key nodes) :=
  keepsOrigin_bind (keepsOrigin_openItem key) ((Section.keepsOrigin_putAll nodes).within [key])

/-- Statements one after the other. -/
theorem Performs.append
    {statements others : List Statement}
    (performs : Performs statements path first)
    (nonempty : statements ≠ [])
    (keeps : KeepsOrigin first)
    (performsOthers : Performs others path second) :
    Performs (statements ++ others) path fun table => (first table).bind second := by
  intro draft root done _
  obtain ⟨middle, one, other⟩ := exists_of_within_bind keeps done
  obtain ⟨last, run⟩ := performs draft middle one fun empty => absurd empty nonempty
  obtain ⟨final, runOthers⟩ := performsOthers ⟨middle, last⟩ root other fun _ =>
    leads_of_within keeps one
  exact ⟨final, by rw [List.foldlM_append, run]; exact runOthers⟩

/-- No statements leave a table as it is. -/
theorem performs_nil : Performs [] path some := by
  intro draft root done leads
  obtain rfl : draft.root = root := Option.some.inj ((leads rfl).symm.trans done)
  exact ⟨draft.path, rfl⟩

end Performing

/-! ## Whole tables -/

/-- A table without a header line of its own has fields, all of them with headers. -/
theorem headed_of_not_showsHeader
    {fields : List (String × Toml)}
    (hidden : ¬showsHeader fields) :
    fields ≠ [] ∧ ∀ field ∈ fields, hasHeader field.2 := by
  simpa [showsHeader] using hidden

mutual

/-- A value with a header has statements. -/
theorem valueStatements_ne_nil
    (path : List String)
    (key : String)
    {value : Toml}
    (headed : hasHeader value) :
    valueStatements path key value ≠ [] := by
  match value with
  | .table fields =>
      rw [valueStatements]
      split
      · simp
      · next hidden =>
        obtain ⟨nonempty, allHeaded⟩ := headed_of_not_showsHeader hidden
        obtain ⟨field, present⟩ := List.exists_mem_of_ne_nil fields nonempty
        exact fieldStatements_ne_nil _ ⟨field, present, allHeaded field present⟩
  | .array [] => cases headed
  | .array (item :: items) =>
      have tables : (item :: items).all isTable := headed
      rw [valueStatements, if_pos tables]
      cases item with
      | table fields => simp [itemStatements]
      | _ => cases tables

theorem fieldStatements_ne_nil
    (path : List String)
    {fields : List (String × Toml)}
    (headed : ∃ field ∈ fields, hasHeader field.2) :
    fieldStatements path fields ≠ [] := by
  match fields with
  | [] => simp at headed
  | (key, value) :: rest =>
      intro empty
      rw [fieldStatements, List.append_eq_nil_iff] at empty
      obtain ⟨field, present, isHeaded⟩ := headed
      rcases List.mem_cons.mp present with rfl | inRest
      · exact valueStatements_ne_nil path key isHeaded empty.1
      · exact fieldStatements_ne_nil path ⟨field, inRest, isHeaded⟩ empty.2

end

/-- A value without a header has no statements. -/
theorem valueStatements_eq_nil
    (path : List String)
    (key : String)
    {value : Toml}
    (unheaded : hasHeader value = false) :
    valueStatements path key value = [] := by
  cases value with
  | table fields => cases unheaded
  | array items =>
      rw [valueStatements]
      split
      · next tables =>
        have empty : items = [] := by simpa [hasHeader, tables] using unheaded
        rw [empty]
        rfl
      · rfl
  | _ => rfl

theorem itemNodes_ne_nil
    {items : List Toml}
    (nonempty : items ≠ [])
    (tables : items.all isTable) :
    itemNodes items ≠ [] := by
  obtain ⟨item, rest, rfl⟩ := List.exists_cons_of_ne_nil nonempty
  cases item with
  | table fields => simp [itemNodes]
  | _ => cases tables

/-- No table of an array has a key twice. -/
theorem nodup_itemNodes
    {depth : Nat}
    {items : List Toml}
    (readable : ReadableItems depth items) :
    ∀ nodes ∈ itemNodes items, (nodes.map Prod.fst).Nodup := by
  induction items with
  | nil => simp [itemNodes]
  | cons item items inductionHypothesis =>
      have others := inductionHypothesis readable.2
      match item, depth, readable.1 with
      | .table fields, depth + 1, readableItem =>
          rw [itemNodes, List.forall_mem_cons]
          exact ⟨nodup_fieldNodes readableItem.1, others⟩
      | .string _, _, _ => exact others
      | .integer _, _, _ => exact others
      | .bool _, _, _ => exact others
      | .dateTime _, _, _ => exact others
      | .array _, _, _ => exact others

mutual

/-- The statements of a value with a header put it under its key. -/
theorem performs_valueStatements
    {path : List String}
    {key : String}
    {value : Toml}
    {depth : Nat}
    (readable : value.Readable depth)
    (headed : hasHeader value) :
    Performs (valueStatements path key value) path (put key (nodeOf value)) := by
  match value, depth, readable with
  | .table fields, depth + 1, readable =>
      have distinct := nodup_fieldNodes readable.1
      have inside := @performs_fieldStatements (path ++ [key]) fields depth readable.2
      have nodes : (unheaded fields).map valueField ++ headedNodes fields = fieldNodes fields := rfl
      rw [valueStatements, nodeOf, nodes]
      by_cases shows : showsHeader fields
      · rw [if_pos shows, if_pos shows]
        exact (performs_opening inside (keepsOrigin_openTable key) within_some_of_openTable
          add_table).mono (openTable_of_put distinct)
      · rw [if_neg shows, if_neg shows, List.nil_append]
        obtain ⟨nonempty, allHeaded⟩ := headed_of_not_showsHeader shows
        have allNodes : fieldNodes fields = headedNodes fields := by
          have none : unheaded fields = [] := by
            simpa [unheaded, List.filter_eq_nil_iff] using allHeaded
          rw [fieldNodes, none]
          rfl
        rw [allNodes] at distinct ⊢
        obtain ⟨field, present⟩ := List.exists_mem_of_ne_nil fields nonempty
        have someStatement := fieldStatements_ne_nil (path ++ [key])
          ⟨field, present, allHeaded field present⟩
        exact (inside.above someStatement).mono (within_of_put distinct)
  | .array items, depth + 1, readable =>
      have readableItems : ReadableItems depth items := readable
      obtain ⟨nonempty, tables⟩ : items ≠ [] ∧ items.all isTable := by
        simpa [hasHeader] using headed
      have someTable := itemNodes_ne_nil nonempty tables
      rw [valueStatements, nodeOf, if_pos tables, if_pos tables]
      exact (performs_itemStatements readableItems tables).mono
        (extendAll_of_put someTable (nodup_itemNodes readableItems))
  | .string _, _, _ => cases headed
  | .integer _, _, _ => cases headed
  | .bool _, _, _ => cases headed
  | .dateTime _, _, _ => cases headed

/-- The statements of items append their tables. -/
theorem performs_itemStatements
    {path : List String}
    {key : String}
    {items : List Toml}
    {depth : Nat}
    (readable : ReadableItems depth items)
    (tables : items.all isTable) :
    Performs (itemStatements path key items) path (extendAll key (itemNodes items)) := by
  match items with
  | [] => exact performs_nil
  | item :: rest =>
      obtain ⟨isTable, tablesRest⟩ : item.isTable ∧ rest.all Toml.isTable := by
        simpa using tables
      have others := @performs_itemStatements path key rest depth readable.2 tablesRest
      match item, depth, readable.1 with
      | .table fields, depth + 1, readableItem =>
          have inside := @performs_fieldStatements (path ++ [key]) fields depth readableItem.2
          have first : Performs (.item path key ::
              (pairStatements fields ++ fieldStatements (path ++ [key]) fields)) path
              (extend key (fieldNodes fields)) :=
            performs_opening inside (keepsOrigin_openItem key) within_some_of_openItem add_item
          rw [itemStatements, itemNodes]
          exact first.append (List.cons_ne_nil _ _) (keepsOrigin_extend key _) others
      | .string _, _, _ => cases isTable
      | .integer _, _, _ => cases isTable
      | .bool _, _, _ => cases isTable
      | .dateTime _, _, _ => cases isTable
      | .array _, _, _ => cases isTable

/-- The statements of fields put their nodes with headers into the table. -/
theorem performs_fieldStatements
    {path : List String}
    {fields : List (String × Toml)}
    {depth : Nat}
    (readable : ReadableFields depth fields) :
    Performs (fieldStatements path fields) path (putAll (headedNodes fields)) := by
  match fields with
  | [] => exact performs_nil
  | (key, value) :: rest =>
      have others := @performs_fieldStatements path rest depth readable.2
      rw [fieldStatements, headedNodes]
      cases headed : hasHeader value with
      | true =>
          exact (performs_valueStatements readable.1 headed).append
            (valueStatements_ne_nil path key headed) (Section.keepsOrigin_put _ _) others
      | false =>
          rw [valueStatements_eq_nil path key headed]
          exact others

end

/-- The statements of a document build its table. -/
theorem foldlM_documentStatements
    {depth : Nat}
    {fields : List (String × Toml)}
    (distinct : (fields.map Prod.fst).Nodup)
    (readable : ReadableFields depth fields) :
    ∃ last, (documentStatements fields).foldlM Draft.add ⟨.root, []⟩ =
      some ⟨⟨.header, fieldNodes fields⟩, last⟩ := by
  have built := @Section.putAll_of_new .root (fieldNodes fields) (by decide)
    (by simpa [Section.root] using nodup_fieldNodes distinct)
  exact @exists_of_body _ fields ⟨.root, []⟩ (performs_fieldStatements readable) rfl built

end Toml
end Valset
