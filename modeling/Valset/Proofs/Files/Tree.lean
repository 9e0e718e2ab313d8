import Mathlib.Logic.Function.Basic
import Valset.Files.Tree
import Valset.Proofs.Files.Path

/-!
# Trees of files

What stands at the places of a tree, and what writing and moving files and making directories change
of it. Each file of a sound tree stands at one place, so that a change at one place is none at
another. Directories stay, and with them the places that paths lead to.
-/

namespace Valset

/-- Taking away one key leaves the others as they are. -/
theorem lookup_filter_ne
    {κ α : Type}
    [BEq κ]
    [LawfulBEq κ]
    {key other : κ}
    (elsewhere : other ≠ key)
    (pairs : List (κ × α)) :
    (pairs.filter (·.1 != key)).lookup other = pairs.lookup other := by
  induction pairs with
  | nil => rfl
  | cons pair pairs inductionHypothesis =>
      obtain ⟨first, value⟩ := pair
      by_cases dropped : first = key
      · have notOther : (other == first) = false := by
          rw [beq_eq_false_iff_ne, dropped]
          exact elsewhere
        simp [dropped, List.lookup_cons, inductionHypothesis, beq_eq_false_iff_ne.mpr elsewhere]
      · rw [List.filter_cons_of_pos (by simpa using dropped), List.lookup_cons, List.lookup_cons,
          inductionHypothesis]

/-- No entry is left for a key that was taken out. -/
theorem lookup_filter_self
    {κ α : Type}
    [BEq κ]
    [LawfulBEq κ]
    (key : κ)
    (pairs : List (κ × α)) :
    (pairs.filter (·.1 != key)).lookup key = none := by
  induction pairs with
  | nil => rfl
  | cons pair pairs inductionHypothesis =>
      obtain ⟨first, value⟩ := pair
      by_cases dropped : first = key
      · simp [dropped, inductionHypothesis]
      · rw [List.filter_cons_of_pos (by simpa using dropped), List.lookup_cons,
          beq_eq_false_iff_ne.mpr (Ne.symm dropped), inductionHypothesis]

namespace FileTree

/-! ## Entries and contents -/

/-- Setting an entry changes it and no other. -/
theorem entry?_setEntry
    (tree : FileTree)
    (location : Location)
    (entry : FileEntry) :
    entry? (tree.setEntry location entry) = Function.update tree.entry? location (some entry) := by
  funext other
  rw [Function.update_apply, entry?, setEntry, List.lookup_cons]
  split
  · next same => rw [if_pos (by simpa using same)]
  · next different =>
    have elsewhere : other ≠ location := by simpa using different
    rw [if_neg elsewhere]
    exact lookup_filter_ne elsewhere tree.entries

/-- Dropping an entry takes it away and no other. -/
theorem entry?_dropEntry (tree : FileTree) (location : Location) :
    entry? (tree.dropEntry location) = Function.update tree.entry? location none := by
  funext other
  rw [Function.update_apply, entry?, dropEntry]
  split
  · next same => exact same ▸ lookup_filter_self location tree.entries
  · next elsewhere => exact lookup_filter_ne elsewhere tree.entries

/-- Setting the content of a file changes it and no other. -/
theorem content_setContent
    (tree : FileTree)
    (number : Nat)
    (content : Bytes) :
    (tree.setContent number content).content = Function.update tree.content number content := by
  funext other
  rw [Function.update_apply, FileTree.content, setContent, List.lookup_cons]
  split
  · next same => rw [if_pos (by simpa using same)]; rfl
  · next different =>
    have elsewhere : other ≠ number := by simpa using different
    rw [if_neg elsewhere, lookup_filter_ne elsewhere]
    rfl

/-- Every file has its own number, below those that are still free, and stands at one place. -/
structure Sound (tree : FileTree) : Prop where
  numbered : ∀ location number, tree.entry? location = some (.file number) → number < tree.used
  apart : ∀ one other number, tree.entry? one = some (.file number) →
    tree.entry? other = some (.file number) → one = other
  working : tree.entry? tree.working = some .directory

/-- There are no files in an empty tree. -/
theorem sound_empty : empty.Sound := by
  have noFile : ∀ location number, empty.entry? location ≠ some (.file number) := by
    intro location number held
    obtain ⟨front, back, split, _⟩ := List.lookup_eq_some_iff.mp held
    have present : (location, FileEntry.file number) ∈ empty.entries := by simp [split]
    simp [empty] at present
  refine ⟨?_, ?_, rfl⟩
  · intro location number held
    exact absurd held (noFile location number)
  · intro one other number held
    exact absurd held (noFile one number)

/-- What stands at a place, a file by its content. -/
inductive Standing
  | directory
  | file (content : Bytes)
  | device (isFull : Bool)
deriving DecidableEq

/-- What an entry of a tree stands for. -/
def standing (tree : FileTree) : FileEntry → Standing
  | .directory => .directory
  | .file number => .file (tree.content number)
  | .device isFull => .device isFull

/-- What stands at a place of a tree, if there is anything. -/
def standing? (tree : FileTree) (location : Location) : Option Standing :=
  (tree.entry? location).map tree.standing

theorem standing?_eq_directory_iff {tree : FileTree} {location : Location} :
    tree.standing? location = some .directory ↔ tree.entry? location = some .directory := by
  rw [standing?]
  cases tree.entry? location with
  | none => simp
  | some entry => cases entry <;> simp [standing]

theorem standing?_eq_none_iff {tree : FileTree} {location : Location} :
    tree.standing? location = none ↔ tree.entry? location = none :=
  Option.map_eq_none_iff

/-- A file stands where its number is entered, with the content that it has. -/
theorem standing?_eq_file_iff
    {tree : FileTree}
    {location : Location}
    {content : Bytes} :
    tree.standing? location = some (.file content) ↔
      ∃ number, tree.entry? location = some (.file number) ∧ tree.content number = content := by
  rw [standing?]
  cases tree.entry? location with
  | none => simp
  | some entry => cases entry <;> simp [standing]

/-- A place where a file can be written, for nothing but a file stands there. -/
def Writable (tree : FileTree) (location : Location) : Prop :=
  tree.standing? location = none ∨ ∃ old, tree.standing? location = some (.file old)

theorem Writable.notDirectory
    {tree : FileTree}
    {location : Location}
    (writable : tree.Writable location) :
    tree.standing? location ≠ some .directory := by
  rcases writable with absent | ⟨old, held⟩
  · simp [absent]
  · simp [held]

/-- A tree that has become a sound one with other things standing at its places. -/
structure Becomes
    (tree : FileTree)
    (standing? : Location → Option Standing)
    (changed : FileTree) : Prop where
  sound : changed.Sound
  standing : changed.standing? = standing?
  working : changed.working = tree.working

section Changes

variable
  {tree : FileTree}
  {location : Location}

/-- A new content of a file is seen at the place of the file only. -/
theorem Sound.becomes_setContent
    (sound : tree.Sound)
    {number : Nat}
    (held : tree.entry? location = some (.file number))
    (content : Bytes) :
    tree.Becomes (Function.update tree.standing? location (some (.file content)))
      (tree.setContent number content) where
  sound := ⟨sound.numbered, sound.apart, sound.working⟩
  working := rfl
  standing := by
    funext other
    have sameEntry : entry? (tree.setContent number content) other = tree.entry? other := rfl
    rw [Function.update_apply, standing?, sameEntry]
    split
    · next same =>
      rw [same, held]
      simp [FileTree.standing, content_setContent]
    · next elsewhere =>
      rw [standing?]
      cases entry : tree.entry? other with
      | none => rfl
      | some found =>
          cases found with
          | directory => rfl
          | device isFull => rfl
          | file otherNumber =>
              have notSame : otherNumber ≠ number := by
                rintro rfl
                exact elsewhere (sound.apart _ _ _ entry held)
              simp [FileTree.standing, content_setContent, notSame]

/-- A new file is seen at its place only. -/
theorem Sound.becomes_addFile
    (sound : tree.Sound)
    (free : tree.entry? location = none)
    (content : Bytes) :
    tree.Becomes (Function.update tree.standing? location (some (.file content)))
      (tree.addFile location content) := by
  have entries : entry? (tree.addFile location content) =
      Function.update tree.entry? location (some (.file tree.used)) :=
    entry?_setEntry tree location (.file tree.used)
  have contents : (tree.addFile location content).content =
      Function.update tree.content tree.used content :=
    content_setContent (tree.setEntry location (.file tree.used)) tree.used content
  refine ⟨⟨?_, ?_, ?_⟩, ?_, rfl⟩
  · intro other number held
    change number < tree.used + 1
    rw [entries, Function.update_apply] at held
    split at held
    · injection held with held
      injection held with held
      omega
    · exact Nat.lt_succ_of_lt (sound.numbered other number held)
  · intro one other number heldOne heldOther
    rw [entries, Function.update_apply] at heldOne heldOther
    split at heldOne <;> split at heldOther
    · next sameOne sameOther => rw [sameOne, sameOther]
    · injection heldOne with heldOne
      injection heldOne with heldOne
      exact absurd (sound.numbered other number heldOther) (by omega)
    · injection heldOther with heldOther
      injection heldOther with heldOther
      exact absurd (sound.numbered one number heldOne) (by omega)
    · exact sound.apart one other number heldOne heldOther
  · change entry? (tree.addFile location content) tree.working = _
    have elsewhere : tree.working ≠ location := by
      rintro rfl
      rw [sound.working] at free
      cases free
    rw [entries, Function.update_of_ne elsewhere, sound.working]
  · funext other
    rw [standing?, entries, Function.update_apply, Function.update_apply]
    split
    · simp [FileTree.standing, contents]
    · rw [standing?]
      cases entry : tree.entry? other with
      | none => rfl
      | some found =>
          cases found with
          | directory => rfl
          | device isFull => rfl
          | file number =>
              have notNew : number ≠ tree.used := Nat.ne_of_lt (sound.numbered _ _ entry)
              simp [FileTree.standing, contents, notNew]

/-- A file that is moved stands at its new place, and no longer at its old one. -/
theorem Sound.becomes_move
    (sound : tree.Sound)
    {source target : Location}
    {number : Nat}
    (held : tree.entry? source = some (.file number))
    (notDirectory : tree.entry? target ≠ some .directory) :
    tree.Becomes
      (Function.update (Function.update tree.standing? source none) target
        (some (.file (tree.content number))))
      ((tree.dropEntry source).setEntry target (.file number)) := by
  have entries : entry? ((tree.dropEntry source).setEntry target (.file number)) =
      Function.update (Function.update tree.entry? source none) target
        (some (.file number)) := by
    rw [entry?_setEntry, entry?_dropEntry]
  have files : ∀ other otherNumber,
      entry? ((tree.dropEntry source).setEntry target (.file number)) other =
        some (.file otherNumber) →
      (other = target ∧ otherNumber = number) ∨
        (other ≠ source ∧ tree.entry? other = some (.file otherNumber)) := by
    intro other otherNumber heldOther
    rw [entries, Function.update_apply, Function.update_apply] at heldOther
    split at heldOther
    · next here =>
      injection heldOther with heldOther
      injection heldOther with heldOther
      exact .inl ⟨here, heldOther.symm⟩
    · split at heldOther
      · cases heldOther
      · next notSource => exact .inr ⟨notSource, heldOther⟩
  refine ⟨⟨?_, ?_, ?_⟩, ?_, rfl⟩
  · intro other otherNumber heldOther
    change otherNumber < tree.used
    rcases files other otherNumber heldOther with ⟨_, rfl⟩ | ⟨_, heldBefore⟩
    · exact sound.numbered source otherNumber held
    · exact sound.numbered other otherNumber heldBefore
  · intro one other otherNumber heldOne heldOther
    -- A file that was not moved has another number than the one that was.
    rcases files one otherNumber heldOne with ⟨rfl, rfl⟩ | ⟨notSource, heldBefore⟩
    · rcases files other otherNumber heldOther with ⟨rfl, _⟩ | ⟨notSource, heldBefore⟩
      · rfl
      · exact absurd (sound.apart _ _ _ heldBefore held) notSource
    · rcases files other otherNumber heldOther with ⟨rfl, rfl⟩ | ⟨_, heldOtherBefore⟩
      · exact absurd (sound.apart _ _ _ heldBefore held) notSource
      · exact sound.apart _ _ _ heldBefore heldOtherBefore
  · change entry? ((tree.dropEntry source).setEntry target (.file number)) tree.working = _
    have notTarget : tree.working ≠ target := by
      rintro rfl
      exact notDirectory sound.working
    have notSource : tree.working ≠ source := by
      rintro rfl
      rw [sound.working] at held
      cases held
    rw [entries, Function.update_of_ne notTarget, Function.update_of_ne notSource, sound.working]
  · funext other
    rw [standing?, entries]
    simp only [Function.update_apply]
    split
    · rfl
    · split
      · rfl
      · rfl

end Changes

/-! ## Ways through directories -/

/-- A sound tree in which the directories of another one are still there. -/
structure Continues (tree later : FileTree) : Prop where
  sound : later.Sound
  directories : ∀ location, tree.entry? location = some .directory →
    later.entry? location = some .directory
  working : later.working = tree.working

theorem Sound.continues {tree : FileTree} (sound : tree.Sound) : tree.Continues tree :=
  ⟨sound, fun _ held => held, rfl⟩

/-- What continues a tree that continues another continues this one. -/
theorem Continues.trans
    {tree middle later : FileTree}
    (first : tree.Continues middle)
    (second : middle.Continues later) :
    tree.Continues later where
  sound := second.sound
  directories location held := second.directories location (first.directories location held)
  working := second.working.trans first.working

theorem Becomes.continues
    {tree changed : FileTree}
    {standing? : Location → Option Standing}
    (becomes : tree.Becomes standing? changed)
    (kept : ∀ location, tree.standing? location = some .directory →
      standing? location = some .directory) :
    tree.Continues changed where
  sound := becomes.sound
  directories location held := by
    rw [← standing?_eq_directory_iff, becomes.standing]
    exact kept location (standing?_eq_directory_iff.mpr held)
  working := becomes.working

/-- The directories stay when something else is put where no directory stands. -/
theorem Becomes.continues_update
    {tree changed : FileTree}
    {location : Location}
    {standing? : Option Standing}
    (becomes : tree.Becomes (Function.update tree.standing? location standing?) changed)
    (notDirectory : tree.standing? location ≠ some .directory) :
    tree.Continues changed := by
  apply becomes.continues
  intro other directory
  rw [Function.update_of_ne, directory]
  rintro rfl
  exact notDirectory directory

/-- Where a name leads from a directory. -/
def onward (location : Location) (name : String) : Except FileFault Location :=
  if Path.isHere name then .ok location
  else if name == ".." then .ok (above location)
  else if name.utf8ByteSize > longestName then .error .nameTooLong
  else .ok (location ++ [name])

theorem needDirectory_eq_ok_iff {tree : FileTree} {location : Location} :
    tree.needDirectory location = .ok () ↔ tree.entry? location = some .directory := by
  rw [needDirectory]
  cases tree.entry? location with
  | none => simp
  | some entry => cases entry <;> simp

/-- From a directory a step goes on by its name. -/
theorem step_eq_onward
    {tree : FileTree}
    {location : Location}
    (directory : tree.entry? location = some .directory)
    (name : String) :
    tree.step location name = onward location name := by
  rw [step, needDirectory_eq_ok_iff.mpr directory]
  change (do
    if Path.isHere name then return location
    if name == ".." then return above location
    if name.utf8ByteSize > longestName then throw .nameTooLong
    return location ++ [name] : Except FileFault Location) = _
  rw [onward]
  split
  · rfl
  · split
    · rfl
    · split
      · rfl
      · rfl

/-- Only a directory is stepped out of. -/
theorem entry?_of_step_eq_ok
    {tree : FileTree}
    {location next : Location}
    {name : String}
    (stepped : tree.step location name = .ok next) :
    tree.entry? location = some .directory := by
  rw [← needDirectory_eq_ok_iff]
  rw [step] at stepped
  cases needed : tree.needDirectory location with
  | ok done => rfl
  | error fault =>
      rw [needed] at stepped
      cases stepped

/-- Names lead from a place to a directory. -/
structure Leads
    (tree : FileTree)
    (location : Location)
    (names : List String)
    (place : Location) : Prop where
  reached : names.foldlM tree.step location = .ok place
  directory : tree.entry? place = some .directory

section Leads

variable
  {tree later : FileTree}
  {location place : Location}
  {names : List String}

/-- A way begins in a directory, with the step of its first name. -/
theorem leads_cons_iff {name : String} :
    tree.Leads location (name :: names) place ↔
      tree.entry? location = some .directory ∧
        ∃ next, onward location name = .ok next ∧ tree.Leads next names place := by
  constructor
  · rintro ⟨reached, directory⟩
    rw [List.foldlM_cons] at reached
    cases stepped : tree.step location name with
    | error fault =>
        rw [stepped] at reached
        cases reached
    | ok next =>
        have here := entry?_of_step_eq_ok stepped
        rw [stepped] at reached
        rw [step_eq_onward here] at stepped
        exact ⟨here, next, stepped, reached, directory⟩
  · rintro ⟨here, next, onwards, reached, directory⟩
    refine ⟨?_, directory⟩
    rw [List.foldlM_cons, step_eq_onward here, onwards]
    exact reached

/-- Names that lead somewhere start from a directory. -/
theorem Leads.start (leads : tree.Leads location names place) :
    tree.entry? location = some .directory := by
  cases names with
  | nil =>
      obtain rfl : location = place := Except.ok.inj leads.reached
      exact leads.directory
  | cons name names => exact (leads_cons_iff.mp leads).1

/-- Names that stand for the directory that has been reached make no difference. -/
theorem leads_leading_iff :
    tree.Leads location (Path.leading names) place ↔ tree.Leads location names place := by
  induction names generalizing location with
  | nil => rfl
  | cons name names inductionHypothesis =>
      by_cases here : Path.isHere name
      · have skipped : Path.leading (name :: names) = Path.leading names := by
          simp [Path.leading, here]
        have stays : onward location name = .ok location := by
          rw [onward, if_pos here]
        rw [skipped, inductionHypothesis, leads_cons_iff, stays]
        constructor
        · intro leads
          exact ⟨leads.start, location, rfl, leads⟩
        · rintro ⟨_, next, same, leads⟩
          obtain rfl := Except.ok.inj same
          exact leads
      · have taken : Path.leading (name :: names) = name :: Path.leading names := by
          simp [Path.leading, here]
        simp only [taken, leads_cons_iff, inductionHypothesis]

/-- Where names lead does not change while the directories stay. -/
theorem Leads.continues
    (leads : tree.Leads location names place)
    (continues : tree.Continues later) :
    later.Leads location names place := by
  induction names generalizing location with
  | nil => exact ⟨leads.reached, continues.directories place leads.directory⟩
  | cons name names inductionHypothesis =>
      obtain ⟨here, next, onwards, rest⟩ := leads_cons_iff.mp leads
      exact leads_cons_iff.mpr
        ⟨continues.directories location here, next, onwards, inductionHypothesis rest⟩

/-- Nothing is made on a way that leads through directories. -/
theorem Leads.makeAlong (leads : tree.Leads location names place) :
    tree.makeAlong location names = (.ok (), tree) := by
  induction names generalizing location with
  | nil => rfl
  | cons name names inductionHypothesis =>
      obtain ⟨here, next, onwards, rest⟩ := leads_cons_iff.mp leads
      simp only [FileTree.makeAlong, step_eq_onward here, onwards, rest.start,
        inductionHypothesis rest]

/-- A tree stays sound when a directory is made. -/
theorem Sound.continues_setEntry
    (sound : tree.Sound)
    (location : Location) :
    tree.Continues (tree.setEntry location .directory) := by
  have entries := entry?_setEntry tree location .directory
  have kept : ∀ other, tree.entry? other = some .directory →
      entry? (tree.setEntry location .directory) other = some .directory := by
    intro other held
    rw [entries, Function.update_apply]
    split
    · rfl
    · exact held
  have files : ∀ other number,
      entry? (tree.setEntry location .directory) other = some (.file number) →
      tree.entry? other = some (.file number) := by
    intro other number held
    rw [entries, Function.update_apply] at held
    split at held
    · cases held
    · exact held
  refine ⟨⟨?_, ?_, kept _ sound.working⟩, kept, rfl⟩
  · intro other number held
    exact sound.numbered other number (files other number held)
  · intro one other number heldOne heldOther
    exact sound.apart one other number (files one number heldOne) (files other number heldOther)

/-- Directories are made only below one. -/
theorem entry?_of_makeAlong
    (nonempty : names ≠ [])
    (made : tree.makeAlong location names = (.ok (), later)) :
    tree.entry? location = some .directory := by
  cases names with
  | nil => exact absurd rfl nonempty
  | cons name names =>
      rw [FileTree.makeAlong] at made
      cases stepped : tree.step location name with
      | ok next => exact entry?_of_step_eq_ok stepped
      | error fault =>
          rw [stepped] at made
          cases made

/-- A way is there once the directories on it have been made. -/
theorem leads_of_makeAlong
    (sound : tree.Sound)
    (here : tree.entry? location = some .directory)
    (made : tree.makeAlong location names = (.ok (), later)) :
    tree.Continues later ∧ ∃ place, later.Leads location names place := by
  induction names generalizing tree location with
  | nil =>
      obtain rfl : tree = later := (Prod.mk.inj made).2
      exact ⟨sound.continues, location, rfl, here⟩
  | cons name names inductionHypothesis =>
      simp only [FileTree.makeAlong, step_eq_onward here] at made
      cases onwards : onward location name with
      | error fault =>
          rw [onwards] at made
          cases made
      | ok next =>
          simp only [onwards] at made
          cases entry : tree.entry? next with
          | none =>
              simp only [entry] at made
              have continues := sound.continues_setEntry next
              have there : entry? (tree.setEntry next .directory) next = some .directory := by
                rw [entry?_setEntry, Function.update_self]
              obtain ⟨later, place, leads⟩ := inductionHypothesis continues.sound there made
              have stays := later.directories _ (continues.directories _ here)
              exact ⟨continues.trans later, place, leads_cons_iff.mpr ⟨stays, next, onwards, leads⟩⟩
          | some found =>
              simp only [entry] at made
              cases found with
              | file number => cases made
              | device isFull => cases made
              | directory =>
                  obtain ⟨later, place, leads⟩ := inductionHypothesis sound entry made
                  exact ⟨later, place,
                    leads_cons_iff.mpr ⟨later.directories _ here, next, onwards, leads⟩⟩

end Leads

/-! ## Paths below a directory -/

/-- A path may have any characters but one. -/
theorem checkPath_eq_ok_iff {path : String} :
    checkPath path = .ok () ↔ '\x00' ∉ path.toList := by
  rw [checkPath]
  split
  · next nul => simpa using nul
  · next clean => simpa using clean

/-- A path of a directory leads to a place, where there is one. -/
structure Opened (tree : FileTree) (directory : String) (place : Location) : Prop where
  clean : '\x00' ∉ directory.toList
  leads : tree.Leads (tree.start directory) (Path.way directory) place

section Opened

variable
  {tree later : FileTree}
  {directory name : String}
  {place : Location}

/-- A directory that has been opened stays open. -/
theorem Opened.continues
    (opened : tree.Opened directory place)
    (continues : tree.Continues later) :
    later.Opened directory place := by
  refine ⟨opened.clean, ?_⟩
  have started : later.start directory = tree.start directory := by
    rw [start, start, continues.working]
  rw [started]
  exact opened.leads.continues continues

/-- A directory is there once it has been made. -/
theorem opened_of_makeDirectories
    (sound : tree.Sound)
    (made : tree.makeDirectories directory = (.ok (), later)) :
    tree.Continues later ∧ ∃ place, later.Opened directory place := by
  rw [makeDirectories] at made
  cases checked : checkPath directory with
  | error fault =>
      rw [checked] at made
      cases made
  | ok done =>
      have clean := checkPath_eq_ok_iff.mp checked
      simp only [checked] at made
      split at made
      · next empty =>
        obtain rfl : directory = "" := by simpa using empty
        obtain rfl : tree = later := (Prod.mk.inj made).2
        exact ⟨sound.continues, tree.working, clean, rfl, sound.working⟩
      · have here := entry?_of_makeAlong (Path.names_ne_nil directory) made
        obtain ⟨continues, place, leads⟩ := leads_of_makeAlong sound here made
        have started : later.start directory = tree.start directory := by
          rw [start, start, continues.working]
        refine ⟨continues, place, clean, ?_⟩
        rw [started]
        exact leads_leading_iff.mpr leads

/-- Nothing is made of a directory that is there. -/
theorem Opened.makeDirectories (opened : tree.Opened directory place) :
    tree.makeDirectories directory = (.ok (), tree) := by
  simp only [FileTree.makeDirectories, checkPath_eq_ok_iff.mpr opened.clean,
    (leads_leading_iff.mp opened.leads).makeAlong, ite_self]

/-- The directory that a path below another directory names is that one, unless it is the one where
the path starts. -/
theorem Opened.exists_parent?
    (opened : tree.Opened directory place)
    (plain : Path.Plain name) :
    ∃ parent, Path.parent? (Path.join directory name) = some parent ∧
      (parent = "" ∨ tree.Opened parent place) := by
  obtain ⟨front, shape, same⟩ := plain.exists_names_join directory
  obtain ⟨parent, found, begins⟩ := Path.exists_parent? plain.leads shape
  refine ⟨parent, found, begins.imp_right fun follows => ?_⟩
  have started : tree.start parent = tree.start directory := by
    rw [start, start, follows.start, plain.isAbsolute_join]
  refine ⟨follows.noNul (plain.noNul_join opened.clean), ?_⟩
  rw [started, follows.way, same]
  exact opened.leads

/-- A path below a directory leads to a place in the directory, unless its last name is too long. -/
theorem Opened.locate_join
    (opened : tree.Opened directory place)
    (plain : Path.Plain name) :
    tree.locate (Path.join directory name) =
      if name.utf8ByteSize > longestName then .error .nameTooLong else .ok (place ++ [name]) := by
  obtain ⟨front, shape, same⟩ := plain.exists_names_join directory
  have started : tree.start (Path.join directory name) = tree.start directory := by
    rw [start, start, plain.isAbsolute_join]
  have leads : tree.Leads (tree.start directory) front place := by
    rw [← leads_leading_iff, same]
    exact opened.leads
  have notEmpty : (Path.join directory name == "") = false :=
    beq_eq_false_iff_ne.mpr (plain.join_ne_empty directory)
  have last : onward place name =
      if name.utf8ByteSize > longestName then .error .nameTooLong else .ok (place ++ [name]) := by
    simp [onward, plain.leads, plain.below]
  rw [locate, checkPath_eq_ok_iff.mpr (plain.noNul_join opened.clean), shape, started, notEmpty,
    List.foldlM_append, leads.reached]
  change tree.step place name >>= pure = _
  rw [step_eq_onward leads.directory, last, bind_pure]

end Opened

/-! ## Reading, writing and moving -/

section Operations

variable
  {tree : FileTree}
  {path : String}
  {location : Location}

/-- A file is read where its path leads. -/
theorem read_of_file
    (located : tree.locate path = .ok location)
    {content : Bytes}
    (held : tree.standing? location = some (.file content)) :
    tree.read path = .ok content := by
  obtain ⟨number, entry, rfl⟩ := standing?_eq_file_iff.mp held
  rw [FileTree.read, located]
  simp only [bind, Except.bind, entry]
  rfl

/-- Where nothing stands there is nothing to read. -/
theorem read_of_nothing
    (located : tree.locate path = .ok location)
    (absent : tree.standing? location = none) :
    tree.read path = .error .notFound := by
  have entry : tree.entry? location = none := standing?_eq_none_iff.mp absent
  rw [FileTree.read, located]
  simp only [bind, Except.bind, entry]
  rfl

theorem isThere_of_nothing
    (located : tree.locate path = .ok location)
    (absent : tree.standing? location = none) :
    tree.isThere path = false := by
  have entry : tree.entry? location = none := standing?_eq_none_iff.mp absent
  rw [FileTree.isThere, located]
  simp only [entry, Option.isSome_none]

/-- A file is written wherever nothing or a file stands. -/
theorem exists_write
    (sound : tree.Sound)
    (located : tree.locate path = .ok location)
    (writable : tree.Writable location)
    (content : Bytes) :
    ∃ changed, tree.write path content = .ok changed ∧
      tree.Becomes (Function.update tree.standing? location (some (.file content))) changed := by
  rcases writable with absent | ⟨old, held⟩
  · have entry : tree.entry? location = none := standing?_eq_none_iff.mp absent
    refine ⟨tree.addFile location content, ?_, sound.becomes_addFile entry content⟩
    rw [FileTree.write, located]
    simp [bind, Except.bind, entry]
    rfl
  · obtain ⟨number, entry, _⟩ := standing?_eq_file_iff.mp held
    refine ⟨tree.setContent number content, ?_, sound.becomes_setContent entry content⟩
    rw [FileTree.write, located]
    simp [bind, Except.bind, entry]
    rfl

/-- A directory is not written over. -/
theorem write_of_directory
    (located : tree.locate path = .ok location)
    (directory : tree.standing? location = some .directory)
    (content : Bytes) :
    tree.write path content = .error .isDirectory := by
  rw [FileTree.write, located]
  simp [bind, Except.bind, standing?_eq_directory_iff.mp directory]
  rfl

/-- What cannot be located cannot be written. -/
theorem write_of_error
    {fault : FileFault}
    (nowhere : tree.locate path = .error fault)
    (content : Bytes) :
    tree.write path content = .error fault := by
  rw [FileTree.write, nowhere]
  rfl

/-- A file is moved wherever no directory stands. -/
theorem exists_move
    (sound : tree.Sound)
    {source target : String}
    {old new : Location}
    (sourceLocated : tree.locate source = .ok old)
    (targetLocated : tree.locate target = .ok new)
    {content : Bytes}
    (held : tree.standing? old = some (.file content))
    (notDirectory : tree.standing? new ≠ some .directory) :
    ∃ changed, tree.move source target = .ok changed ∧
      tree.Becomes
        (Function.update (Function.update tree.standing? old none) new (some (.file content)))
        changed := by
  obtain ⟨number, entry, rfl⟩ := standing?_eq_file_iff.mp held
  rw [ne_eq, standing?_eq_directory_iff] at notDirectory
  refine ⟨_, ?_, sound.becomes_move entry notDirectory⟩
  rw [FileTree.move, sourceLocated, targetLocated]
  simp only [bind, Except.bind, entry]
  rfl

end Operations

end FileTree
end Valset
