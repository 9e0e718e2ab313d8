import Valset.Files.Toml
import Valset.Proofs.Files.Absent
import Valset.Proofs.Toml.RoundTrip

/-!
# Values written to files

A value that is written to a file as JSON or TOML is there as a whole or not at all, whatever fails
and whenever the writing stops. Once it is there it is read back.
-/

namespace Valset
namespace FileTree

/-! ## The file and all others -/

/-- While a file is written it has what it had before or the whole of its new text; where its path
settles, this includes that it was not there, and it never is where a name of its path is too long.
Nothing else changes but the staging file and directories that were missing on the way. -/
structure AllOrNothing (path text : String) (before after : FileTree) : Prop where
  file : ∀ location, after.locate path = .ok location →
    after.standing? location = before.standing? location ∨
      after.standing? location = some (.file (Bytes.ofText text)) ∨
      ∃ parent, Path.parent? path = some parent ∧
        Made before after (before.wayTo parent) location
  read : ∀ content, before.read path = .ok content →
    after.read path = .ok content ∨ after.read path = .ok (Bytes.ofText text)
  settled : before.Settles path →
    after.read path = before.read path ∨ after.read path = .ok (Bytes.ofText text)
  overlong : Overlong path → ∀ content, after.read path ≠ .ok content
  others : ∀ location, after.locate path ≠ .ok location → Spared path before after location

/-- A file that has been written has its new text, and one that could not be written has what it
had before; where its path settles, or has a name which is too long, it is not there if it was not
there. -/
def OldOrNew
    (path text : String)
    (before : FileTree) : Except FileError Unit → FileTree → Prop
  | .ok (), after => after.read path = .ok (Bytes.ofText text)
  | .error _, after =>
    (∀ location, Spared path before after location) ∧
      (∀ content, before.read path = .ok content → after.read path = .ok content) ∧
      (before.Settles path → after.read path = before.read path) ∧
      (Overlong path → ∀ content, after.read path ≠ .ok content)

section Writing

variable
  {before after tree : FileTree}
  {path text : String}

theorem Undivided.allOrNothing
    (undivided : Undivided path text before after)
    (sound : before.Sound)
    (rooted : before.Rooted) :
    AllOrNothing path text before after where
  file location located := by
    rcases undivided.places location with (unchanged | made | isStaging) | ⟨-, whole⟩
    · exact .inl unchanged
    · exact .inr (.inr made)
    · exact absurd rfl (ne_of_locate_staging located isStaging)
    · exact .inr (.inl whole)
  read content held := undivided.read held
  settled settles := undivided.read_of_settles sound rooted settles
  overlong long _ := long.read_ne_ok
  others location elsewhere :=
    (undivided.places location).resolve_right fun hasText => elsewhere hasText.1

theorem AfterWriting.oldOrNew
    (undivided : Undivided path text before after)
    (sound : before.Sound)
    (rooted : before.Rooted)
    {result : Except FileError Unit}
    (finished : AfterWriting path text before result after) :
    OldOrNew path text before result after := by
  cases result with
  | ok done => exact finished
  | error cause =>
      refine ⟨finished, fun content held => finished.read_of_error undivided held, ?_, ?_⟩
      · exact fun settles => read_eq_of_spared sound rooted settles undivided.continues finished
      · exact fun long _ => long.read_ne_ok

/-- Writing a text is all or nothing. -/
theorem keeps_allOrNothing
    (sound : before.Sound)
    (noDevice : before.NoStagedDevice)
    (rooted : before.Rooted)
    (path text : String) :
    (Files.writeText path text).run.Keeps moves (AllOrNothing path text before)
      (OldOrNew path text before) before :=
  (keeps_writeText sound noDevice path text).mono
    (fun _ undivided => undivided.allOrNothing sound rooted)
    fun _ _ undivided finished => AfterWriting.oldOrNew undivided sound rooted finished

/-! ## Reading back -/

/-- A value is read from the TOML text of a file. -/
theorem perform_readToml
    {α : Type}
    (held : tree.read path = .ok (Bytes.ofText text))
    {read : Json.Reader α}
    {fields : List (String × Toml)}
    (parsed : Toml.parse? text = some fields)
    {result : α}
    (understood : read (Toml.table fields).toJson = some result) :
    tree.perform (Files.readToml path read).run = (.ok result, tree) := by
  rw [Files.readToml, perform_bind_of_ok (perform_readText held), parsed]
  simp only [Option.bind_some, understood]
  rfl

/-- A value that has been read was understood in some table, and the tree is as it was. -/
theorem of_perform_readToml
    {α : Type}
    {read : Json.Reader α}
    {result : α}
    (done : tree.perform (Files.readToml path read).run = (.ok result, after)) :
    after = tree ∧ ∃ json, read json = some result := by
  rw [Files.readToml] at done
  obtain ⟨text, middle, taken, valued⟩ := perform_bind_eq_ok_iff.mp done
  obtain ⟨rfl, -⟩ := of_perform_readText taken
  cases understood : (Toml.parse? text).bind fun fields => read (Toml.table fields).toJson with
  | none =>
      rw [understood] at valued
      cases valued
  | some found =>
      rw [understood] at valued
      obtain ⟨same, rfl⟩ := Prod.mk.inj valued
      rw [Except.ok.inj same] at understood
      obtain ⟨fields, -, understood⟩ := Option.bind_eq_some_iff.mp understood
      exact ⟨rfl, _, understood⟩

end Writing

/-- A reader to which the order of fields does not matter. -/
def OrderFree {α : Type} (read : Json.Reader α) : Prop :=
  ∀ ⦃first second : Json⦄, first.canonical = second.canonical → read first = read second

/-- Whatever fails, and whenever writing stops, a value is there as a whole or not at all; and when
it is there, it is read back. A file that was not there is not brought to light by the directories
that are made for it, if its path settles or has a name which is too long. -/
theorem written_whole_or_not
    {before : FileTree}
    (sound : before.Sound)
    (noDevice : before.NoStagedDevice)
    (rooted : before.Rooted)
    (path : String) :
    (∀ value : Json, value.Readable Json.maxDepth →
      (Files.writeJson path value).run.Keeps moves (AllOrNothing path value.indented before)
          (OldOrNew path value.indented before) before ∧
        ∀ after : FileTree, after.read path = .ok (Bytes.ofText value.indented) →
          ∀ {α : Type} (read : Json.Reader α) result, read value = some result →
            after.perform (Files.readJson path read).run = (.ok result, after)) ∧
      (∀ (value : Toml) text, value.Readable (Toml.depthLimit - 1) →
        value.print? = some text →
          (Files.writeToml path (some value)).run.Keeps moves (AllOrNothing path text before)
              (OldOrNew path text before) before ∧
            (Toml.parse? text).map Toml.table = some value.arranged ∧
            ∀ after : FileTree, after.read path = .ok (Bytes.ofText text) →
              ∀ {α : Type} (read : Json.Reader α) result, OrderFree read →
                read value.toJson = some result →
                  after.perform (Files.readToml path read).run = (.ok result, after)) ∧
      (∀ json value, Toml.ofJson? json = some value → value.toJson = json) ∧
      ∀ value : Option Toml, value.bind Toml.print? = none →
        (Files.writeToml path value).run = .done (.error (.writeToml path)) := by
  refine ⟨?_, ?_, ?_, ?_⟩
  · intro value readable
    refine ⟨keeps_allOrNothing sound noDevice rooted path value.indented, ?_⟩
    intro after held α read result understood
    have parsed : (Json.parse value.indented).bind read = some result := by
      rw [Json.parse_indented readable]
      exact understood
    exact perform_readJson held parsed
  · intro value text readable printed
    have parsed := Toml.parse?_of_print? readable (Nat.sub_le _ _) printed
    refine ⟨?_, parsed, ?_⟩
    · have written : Files.writeToml path (some value) = Files.writeText path text := by
        rw [Files.writeToml, Option.bind_some, printed]
      rw [written]
      exact keeps_allOrNothing sound noDevice rooted path text
    · intro after held α read result orderFree understood
      obtain ⟨fields, parsedFields, same⟩ := Option.map_eq_some_iff.mp parsed
      refine perform_readToml held parsedFields ?_
      rw [same, orderFree (Toml.canonical_arranged readable)]
      exact understood
  · exact fun json value made => Toml.toJson_of_ofJson? made
  · intro value refused
    rw [Files.writeToml, refused]
    rfl

/-- A table with a text in quotes and an array of tables. -/
def sampleTable : Toml :=
  .table [("keys", .array [.table [("id", .integer (-7))]]), ("name", .string "a'b\"c")]

/-- The text of the sample. -/
def sampleText : String :=
  "name = \"\"\"a'b\"c\"\"\"\n\n[[keys]]\nid = -7\n"

/-- The sample is written in an empty tree, where its directory is missing, and read back. -/
theorem sampleTable_written :
    ∃ after, empty.perform (Files.writeToml "etc/sample.toml" (some sampleTable)).run =
        (.ok (), after) ∧
      AllOrNothing "etc/sample.toml" sampleText empty after ∧
      after.perform (Files.readToml "etc/sample.toml" fun json => some json.canonical).run =
        (.ok sampleTable.toJson.canonical, after) := by
  have readable : sampleTable.Readable (Toml.depthLimit - 1) := by
    simp [sampleTable, Toml.depthLimit, Toml.Readable, Toml.ReadableFields, Toml.ReadableItems,
      Toml.maxInteger]
  have printed : sampleTable.print? = some sampleText := by decide
  obtain ⟨kept, -, readBack⟩ := (written_whole_or_not sound_empty noStagedDevice_empty
    rooted_empty "etc/sample.toml").2.1 sampleTable sampleText readable printed
  obtain ⟨after, done, whole, held⟩ := exists_of_keeps kept (by decide +kernel)
  exact ⟨after, done, whole,
    readBack after held _ _ (fun _ _ same => congrArg some same) rfl⟩

/-- Whatever the files are, a file that is not there is not there or has the whole of its new value
at every moment while it is written. -/
def AbsentOrWhole (path : String) : Prop :=
  ∀ (before : FileTree) (value : Json), before.Sound → before.NoStagedDevice → before.Rooted →
    value.Readable Json.maxDepth → before.read path = .error .notFound →
      (Files.writeJson path value).run.Keeps moves
        (fun after => after.read path = .error .notFound ∨
          after.read path = .ok (Bytes.ofText value.indented))
        (fun _ _ => True) before

/-- The directory that is made before writing fails brings another file to light. -/
theorem not_absentOrWhole : ¬ AbsentOrWhole "foo/../bar" := by
  intro always
  obtain ⟨sound, noDevice, rooted⟩ := wellFormed_hiddenTree "old"
  have kept := always (hiddenTree "old") .null sound noDevice rooted (by simp [Json.Readable])
    (by decide +kernel)
  have atEnd := (perform_of_keeps kept).1
  revert atEnd
  decide +kernel

end FileTree
end Valset
