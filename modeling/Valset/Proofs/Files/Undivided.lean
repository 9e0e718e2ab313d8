import Valset.Proofs.Files.Faults

/-!
# Files are written as a whole

What stands in a tree of files while a file is written, at every moment and whatever fails. The file
is there as before or with the whole of its new text. Every other place has what it had before,
apart from that of the staging file and from directories that were missing on the way.
-/

namespace Valset
namespace FileTree

/-! ## A file while it is replaced -/

/-- Writing a file spares a place that has what it had before, or where a missing directory on the
way to the file was made, or that is the place of the staging file. -/
def Spared (path : String) (before after : FileTree) (location : Location) : Prop :=
  after.standing? location = before.standing? location ∨
    (∃ parent, Path.parent? path = some parent ∧
      Made before after (before.wayTo parent) location) ∨
    after.locate (Files.staging path) = .ok location

/-- The place of a path has a file with the whole of a text. -/
def HasText (path text : String) (tree : FileTree) (location : Location) : Prop :=
  tree.locate path = .ok location ∧
    tree.standing? location = some (.file (Bytes.ofText text))

/-- No device stands at a place that has the name of a staging file. -/
def NoStagedDevice (tree : FileTree) : Prop :=
  ∀ place name isFull, tree.standing? (place ++ [Files.staging name]) ≠ some (.device isFull)

/-- A tree in which a file is being written: it has the whole new text or is spared like all other
places. -/
structure Undivided (path text : String) (before after : FileTree) : Prop where
  continues : before.Continues after
  noDevice : after.NoStagedDevice
  places : ∀ location, Spared path before after location ∨ HasText path text after location

/-- What writing a file has come to when it is over. -/
def AfterWriting
    (path text : String)
    (before : FileTree) : Except FileError Unit → FileTree → Prop
  | .ok (), after => after.read path = .ok (Bytes.ofText text)
  | .error _, after => ∀ location, Spared path before after location

/-- The devices of an empty tree have other names. -/
theorem noStagedDevice_empty : empty.NoStagedDevice := by
  intro place name isFull held
  obtain ⟨entry, found, same⟩ := Option.map_eq_some_iff.mp held
  obtain ⟨front, back, split, -⟩ := List.lookup_eq_some_iff.mp found
  have present : (place ++ [Files.staging name], entry) ∈ empty.entries := by simp [split]
  have devices : ∀ pair ∈ empty.entries, ∀ isFull, pair.2 = .device isFull →
      ∀ last, pair.1.getLast? = some last → last.toList.getLast? = some 'l' := by
    simp [empty]
  have isDevice : entry = .device isFull := by
    cases entry with
    | device other => exact congrArg FileEntry.device (Standing.device.inj same)
    | directory => cases same
    | file number => cases same
  have endsInL := devices _ present isFull isDevice (Files.staging name) List.getLast?_concat
  rw [Files.staging, String.toList_append] at endsInL
  simp at endsInL

section Replacing

variable
  {before middle staged last after : FileTree}
  {path text : String}

/-- Directories that are made put no device anywhere. -/
theorem NoStagedDevice.of_made
    (noDevice : before.NoStagedDevice)
    {places : List Location}
    (made : ∀ location, middle.standing? location = before.standing? location ∨
      Made before middle places location) :
    middle.NoStagedDevice := by
  intro place name isFull held
  rcases made (place ++ [Files.staging name]) with unchanged | ⟨-, directory, -⟩
  · exact noDevice place name isFull (unchanged.symm.trans held)
  · rw [directory] at held
    cases held

/-- Writing a file puts no device anywhere. -/
theorem NoStagedDevice.of_write
    (noDevice : middle.NoStagedDevice)
    (sound : middle.Sound)
    {written : String}
    {content : Bytes}
    (wrote : middle.write written content = .ok staged) :
    staged.NoStagedDevice := by
  obtain ⟨location, -, -, others, held | ⟨rfl, -⟩⟩ := exists_of_write sound wrote
  · intro place name isFull device
    by_cases here : place ++ [Files.staging name] = location
    · rw [here, held] at device
      cases device
    · rw [others _ here] at device
      exact noDevice place name isFull device
  · exact noDevice

/-- A change at other places spares what was spared. -/
theorem Spared.of_unchanged
    {location : Location}
    (spared : Spared path before middle location)
    (continues : middle.Continues last)
    (unchanged : last.standing? location = middle.standing? location) :
    Spared path before last location := by
  rcases spared with same | ⟨parent, found, missing, directory, onWay⟩ | located
  · exact .inl (unchanged.trans same)
  · exact .inr (.inl ⟨parent, found, missing, unchanged.trans directory, onWay⟩)
  · exact .inr (.inr (locate_continues located continues))

/-- A tree in which everything is spared. -/
structure AllSpared (path : String) (before after : FileTree) : Prop where
  continues : before.Continues after
  noDevice : after.NoStagedDevice
  places : ∀ location, Spared path before after location

theorem AllSpared.undivided
    (all : AllSpared path before after)
    (text : String) :
    Undivided path text before after :=
  ⟨all.continues, all.noDevice, fun location => .inl (all.places location)⟩

/-- Writing the staging file spares all places, whatever is written there. -/
theorem AllSpared.of_write
    (all : AllSpared path before middle)
    {content : Bytes}
    (written : middle.write (Files.staging path) content = .ok staged) :
    AllSpared path before staged := by
  obtain ⟨place, located, goesOn, others, -⟩ := exists_of_write all.continues.sound written
  refine ⟨all.continues.trans goesOn, all.noDevice.of_write all.continues.sound written,
    fun location => ?_⟩
  by_cases here : location = place
  · rw [here]
    exact .inr (.inr (locate_continues located goesOn))
  · exact (all.places location).of_unchanged goesOn (others location here)

/-- What stands at the place of the staging file becomes the file as a whole. -/
theorem AllSpared.undivided_of_move
    (all : AllSpared path before middle)
    (written : middle.write (Files.staging path) (Bytes.ofText text) = .ok staged)
    (moved : staged.move (Files.staging path) path = .ok last) :
    Undivided path text before last ∧ last.read path = .ok (Bytes.ofText text) := by
  have allStaged := all.of_write written
  obtain ⟨place, located, goesOn, -, held | ⟨-, isFull, device⟩⟩ :=
    exists_of_write all.continues.sound written
  · have locatedStaged := locate_continues located goesOn
    obtain ⟨new, locatedNew, further, standing⟩ :=
      exists_of_move goesOn.sound moved locatedStaged held
    have locatedLast := locate_continues locatedNew further
    have heldNew : last.standing? new = some (.file (Bytes.ofText text)) := by
      rw [standing, Function.update_self]
    refine ⟨⟨allStaged.continues.trans further, ?_, fun location => ?_⟩,
      read_of_file locatedLast heldNew⟩
    · intro front name isFull device
      rw [standing, Function.update_apply, Function.update_apply] at device
      split at device
      · cases device
      · split at device
        · cases device
        · exact allStaged.noDevice front name isFull device
    · by_cases isNew : location = new
      · rw [isNew]
        exact .inr ⟨locatedLast, heldNew⟩
      · by_cases isStaging : location = place
        · rw [isStaging]
          exact .inl (.inr (.inr (locate_continues locatedStaged further)))
        · refine .inl ((allStaged.places location).of_unchanged further ?_)
          rw [standing, Function.update_of_ne isNew, Function.update_of_ne isStaging]
  · obtain ⟨front, name, rfl⟩ := exists_staging_of_locate located
    exact absurd device (all.noDevice front name isFull)

/-- Replacing a file divides nothing at any moment. -/
theorem AllSpared.keeps_replaceText
    (all : AllSpared path before middle)
    (text : String) :
    (Files.replaceText path text).Keeps moves (Undivided path text before)
      (AfterWriting path text before) middle := by
  refine ⟨all.undivided text, ?_⟩
  rintro (fault | _) staged moved
  · rcases moved with rfl | ⟨left, -, written⟩
    · exact ⟨all.undivided text, all.places⟩
    · exact ⟨(all.of_write written).undivided text, (all.of_write written).places⟩
  · have allStaged := all.of_write moved
    refine ⟨allStaged.undivided text, ?_⟩
    rintro (fault | _) last movedLast
    · obtain rfl : last = staged := movedLast
      exact ⟨allStaged.undivided text, allStaged.places⟩
    · exact all.undivided_of_move moved movedLast

/-- Writing a file divides nothing at any moment, whatever fails. -/
theorem keeps_writeText
    (sound : before.Sound)
    (noDevice : before.NoStagedDevice)
    (path text : String) :
    (Files.writeText path text).run.Keeps moves (Undivided path text before)
      (AfterWriting path text before) before := by
  have unchanged : AllSpared path before before := ⟨sound.continues, noDevice, fun _ => .inl rfl⟩
  rcases Files.run_writeText path text with ⟨-, direct⟩ | ⟨parent, found, throughParent⟩
  · rw [direct]
    exact unchanged.keeps_replaceText text
  · rw [throughParent]
    refine ⟨unchanged.undivided text, ?_⟩
    intro reply middle moved
    obtain ⟨continues, made⟩ := made_of_moves sound moved
    have all : AllSpared path before middle := ⟨continues, noDevice.of_made made, fun location =>
      (made location).imp_right fun isMade => .inl ⟨parent, found, isMade⟩⟩
    cases reply with
    | error fault => exact ⟨all.undivided text, all.places⟩
    | ok done => exact all.keeps_replaceText text

end Replacing

/-! ## Reading the file meanwhile -/

section Reading

variable
  {tree before after : FileTree}
  {path text : String}
  {content : Bytes}

/-- A file is read as it stands, and a device is empty. -/
theorem read_eq_ok_iff :
    tree.read path = .ok content ↔
      ∃ location, tree.locate path = .ok location ∧
        (tree.standing? location = some (.file content) ∨
          content = [] ∧ ∃ isFull, tree.standing? location = some (.device isFull)) := by
  constructor
  · intro read
    rw [FileTree.read] at read
    obtain ⟨location, located, read⟩ := bind_eq_ok_iff.mp read
    refine ⟨location, located, ?_⟩
    rw [standing?]
    cases entry : tree.entry? location with
    | none =>
        rw [entry] at read
        cases read
    | some found =>
        rw [entry] at read
        cases found with
        | directory => cases read
        | file number =>
            rw [← Except.ok.inj read]
            exact .inl rfl
        | device isFull => exact .inr ⟨(Except.ok.inj read).symm, isFull, rfl⟩
  · rintro ⟨location, located, held | ⟨rfl, isFull, device⟩⟩
    · exact read_of_file located held
    · rw [standing?] at device
      obtain ⟨entry, found, same⟩ := Option.map_eq_some_iff.mp device
      rw [FileTree.read, located]
      cases entry with
      | directory => cases same
      | file number => cases same
      | device isFull =>
          simp only [bind, Except.bind, found]
          rfl

theorem isThere_of_read (read : tree.read path = .ok content) : tree.isThere path := by
  obtain ⟨location, located, stands⟩ := read_eq_ok_iff.mp read
  have present : tree.standing? location ≠ none := by
    rcases stands with held | ⟨-, isFull, device⟩
    · simp [held]
    · simp [device]
  rw [isThere, located]
  simpa [standing?_eq_none_iff, Option.isSome_iff_ne_none] using present

/-- A file that is spared is read as before. -/
theorem read_of_spared
    (continues : before.Continues after)
    {location : Location}
    (located : before.locate path = .ok location)
    (spared : Spared path before after location)
    (read : before.read path = .ok content) :
    after.read path = .ok content := by
  have locatedAfter := locate_continues located continues
  obtain ⟨place, locatedToo, stands⟩ := read_eq_ok_iff.mp read
  obtain rfl : location = place := Except.ok.inj (located.symm.trans locatedToo)
  refine read_eq_ok_iff.mpr ⟨location, locatedAfter, ?_⟩
  rcases spared with unchanged | ⟨_, _, missing, _⟩ | isStaging
  · rwa [unchanged]
  · rw [missing] at stands
    rcases stands with held | ⟨-, isFull, device⟩
    · cases held
    · cases device
  · exact absurd rfl (ne_of_locate_staging locatedAfter isStaging)

theorem exists_locate_of_read (read : before.read path = .ok content) :
    ∃ location, before.locate path = .ok location := by
  obtain ⟨location, located, -⟩ := read_eq_ok_iff.mp read
  exact ⟨location, located⟩

/-- While a file is written it is read as before or as the whole new text. -/
theorem Undivided.read
    (undivided : Undivided path text before after)
    (read : before.read path = .ok content) :
    after.read path = .ok content ∨ after.read path = .ok (Bytes.ofText text) := by
  obtain ⟨location, located⟩ := exists_locate_of_read read
  rcases undivided.places location with spared | ⟨locatedAfter, held⟩
  · exact .inl (read_of_spared undivided.continues located spared read)
  · exact .inr (read_of_file locatedAfter held)

/-- When writing a file has failed, the file is read as before. -/
theorem AfterWriting.read_of_error
    {cause : FileError}
    (undivided : Undivided path text before after)
    (finished : AfterWriting path text before (.error cause) after)
    (read : before.read path = .ok content) :
    after.read path = .ok content := by
  obtain ⟨location, located⟩ := exists_locate_of_read read
  exact read_of_spared undivided.continues located (finished location) read

end Reading

end FileTree
end Valset
