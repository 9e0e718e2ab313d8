import Valset.Proofs.Files.Tree
import Valset.Proofs.Program
import Valset.Proofs.Text.Utf8

/-!
# Programs on a tree of files

The questions that are asked when a file is read or written, and what they come to on a tree. A
file below a directory is replaced by way of its staging file, which is gone afterwards with all
that it held before.
-/

namespace Valset
namespace Files

theorem staging_ne (path : String) : staging path ≠ path := by
  intro same
  have lengths := congrArg String.length same
  simp [staging] at lengths

/-- Writes a file beside its place and moves it there. -/
def replaceText (path text : String) : Program FileDialogue (Except FileError Unit) :=
  .ask (.write (staging path) (Bytes.ofText text)) fun
    | .error fault => .done (.error (.write path fault))
    | .ok () => .ask (.move (staging path) path) fun
      | .error fault => .done (.error (.write path fault))
      | .ok () => .done (.ok ())

/-- The directory of a file is made first, unless it is the working directory. -/
theorem run_writeText (path text : String) :
    ((∀ parent, Path.parent? path = some parent → parent = "") ∧
      (writeText path text).run = replaceText path text) ∨
      ∃ parent, Path.parent? path = some parent ∧
        (writeText path text).run = .ask (.makeDirectories parent) fun
          | .error fault => .done (.error (.makeDirectories parent fault))
          | .ok () => replaceText path text := by
  have replaced : ExceptT.run (do
      orWriteError path (← ask (.write (staging path) (Bytes.ofText text)))
      orWriteError path (← ask (.move (staging path) path))) = replaceText path text := by
    change Program.ask _ _ = Program.ask _ _
    congr 1
    funext reply
    rcases reply with fault | _
    · rfl
    · change Program.ask _ _ = Program.ask _ _
      congr 1
      funext reply
      cases reply <;> rfl
  rw [writeText]
  split
  · next found => exact .inl ⟨fun parent same => Option.some.inj (same.symm.trans found), replaced⟩
  · rename_i parent _ found
    refine .inr ⟨parent, found, ?_⟩
    rw [← replaced]
    change Program.ask _ _ = Program.ask _ _
    congr 1
    funext reply
    cases reply <;> rfl
  · next absent => exact .inl ⟨fun parent found => (nomatch absent.symm.trans found), replaced⟩

/-- What reading a file comes to once there is an answer. -/
def readOutcome
    {α : Type}
    (path : String)
    (read : Json.Reader α) : Except FileFault Bytes → Except FileError (Option α)
  | .error .notFound => .ok none
  | .error fault => .error (.read path fault)
  | .ok content =>
    match Text.ofUtf8? content with
    | none => .error (.read path .notText)
    | some text =>
      match (Json.parse text).bind read with
      | none => .error (.json path)
      | some value => .ok (some value)

/-- A file that is read if it is there is one question. -/
theorem run_readJsonIfThere
    {α : Type}
    (path : String)
    (read : Json.Reader α) :
    (readJsonIfThere path read).run =
      .ask (.read path) fun reply => .done (readOutcome path read reply) := by
  change Program.ask _ _ = _
  congr 1
  funext reply
  rcases reply with fault | content
  · cases fault <;> rfl
  · change Program.andThen (.done (.ok (textOf content))) (ExceptT.bindCont _) = _
    rw [textOf, readOutcome]
    cases Text.ofUtf8? content with
    | none => rfl
    | some text =>
        change Program.andThen (ExceptT.run (valueOf path read text)) _ = _
        rw [valueOf]
        dsimp only
        cases (Json.parse text).bind read <;> rfl

end Files

namespace FileTree

/-- What a program comes to on a tree, and what becomes of the tree. -/
def perform {α : Type} (tree : FileTree) (program : Program FileDialogue α) : α × FileTree :=
  (program.run FileTree.answer).run tree

section Perform

variable
  {α β ε : Type}
  {tree later : FileTree}

theorem perform_question
    {question : FileQuestion}
    {reply : question.Reply}
    (answered : answer question tree = (reply, later))
    (next : question.Reply → Program FileDialogue α) :
    tree.perform (.ask question next) = later.perform (next reply) := by
  change (answer question tree).2.perform (next (answer question tree).1) = _
  rw [answered]

theorem perform_andThen
    (program : Program FileDialogue α)
    (next : α → Program FileDialogue β)
    (tree : FileTree) :
    tree.perform (program.andThen next) =
      (tree.perform program).2.perform (next (tree.perform program).1) :=
  Program.run_andThen_run program next tree

theorem perform_bind_of_ok
    {step : ExceptT ε (Program FileDialogue) α}
    {value : α}
    (done : tree.perform step.run = (.ok value, later))
    (next : α → ExceptT ε (Program FileDialogue) β) :
    tree.perform (step >>= next).run = later.perform (next value).run :=
  Program.run_bind_of_ok done

theorem perform_bind_eq_ok_iff
    {step : ExceptT ε (Program FileDialogue) α}
    {next : α → ExceptT ε (Program FileDialogue) β}
    {result : β} :
    tree.perform (step >>= next).run = (.ok result, later) ↔
      ∃ value between, tree.perform step.run = (.ok value, between) ∧
        between.perform (next value).run = (.ok result, later) :=
  Program.run_bind_eq_ok_iff

theorem perform_adapt_eq_ok_iff
    {ε' : Type}
    {wrap : ε → ε'}
    {step : ExceptT ε (Program FileDialogue) α}
    {value : α} :
    tree.perform (ExceptT.adapt wrap step).run = (.ok value, later) ↔
      tree.perform step.run = (.ok value, later) :=
  Program.run_adapt_eq_ok_iff

theorem perform_ask (question : FileQuestion) (tree : FileTree) :
    tree.perform (Files.ask question).run =
      (.ok (answer question tree).1, (answer question tree).2) :=
  rfl

/-- Directories that can be made are made. -/
theorem perform_makeDirectories
    {path : String}
    (made : tree.makeDirectories path = (.ok (), later)) :
    tree.perform (Files.makeDirectories path).run = (.ok (), later) := by
  have answered : tree.perform
      (Files.ask (.makeDirectories path) : FileProgram (Except FileFault Unit)).run =
        (.ok (.ok ()), later) := by
    rw [perform_ask]
    change (Except.ok (tree.makeDirectories path).1, (tree.makeDirectories path).2) = _
    rw [made]
    rfl
  rw [Files.makeDirectories, perform_bind_of_ok answered]
  rfl

theorem perform_tryReadText
    {path : String}
    {result : Except FileFault Bytes}
    (answered : tree.read path = result) :
    tree.perform (Files.tryReadText path).run = (.ok (result.bind Files.textOf), tree) := by
  rw [← answered]
  rfl

/-- The text of a file is read as it was written. -/
theorem perform_readText
    {path text : String}
    (held : tree.read path = .ok (Bytes.ofText text)) :
    tree.perform (Files.readText path).run = (.ok text, tree) := by
  have tried : tree.perform (Files.tryReadText path).run = (.ok (.ok text), tree) := by
    rw [perform_tryReadText held, Except.bind, Files.textOf, Text.ofUtf8?_ofText]
  rw [Files.readText, perform_bind_of_ok tried]
  rfl

/-- A text that has been read is the text of the file, and the tree is as it was. -/
theorem of_perform_readText
    {path text : String}
    (done : tree.perform (Files.readText path).run = (.ok text, later)) :
    later = tree ∧ ∃ content, tree.read path = .ok content ∧ Text.ofUtf8? content = some text := by
  rw [Files.readText] at done
  obtain ⟨reply, between, tried, taken⟩ := perform_bind_eq_ok_iff.mp done
  rw [perform_tryReadText rfl] at tried
  obtain ⟨answered, rfl⟩ := Prod.mk.inj tried
  obtain rfl := Except.ok.inj answered
  cases content : tree.read path with
  | error fault =>
      rw [content] at taken
      cases taken
  | ok bytes =>
      rw [content, Except.bind, Files.textOf] at taken
      cases isText : Text.ofUtf8? bytes with
      | none =>
          rw [isText] at taken
          cases taken
      | some found =>
          rw [isText] at taken
          obtain ⟨same, rfl⟩ := Prod.mk.inj taken
          obtain rfl : found = text := Except.ok.inj same
          exact ⟨rfl, bytes, rfl, isText⟩

/-- A value is read from the text of a file. -/
theorem perform_readJson
    {path text : String}
    (held : tree.read path = .ok (Bytes.ofText text))
    {read : Json.Reader α}
    {value : α}
    (understood : (Json.parse text).bind read = some value) :
    tree.perform (Files.readJson path read).run = (.ok value, tree) := by
  rw [Files.readJson, perform_bind_of_ok (perform_readText held), Files.valueOf, understood]
  rfl

/-- A file is replaced once its directory has been made. -/
theorem perform_writeText_of_made
    {path parent : String}
    (found : Path.parent? path = some parent)
    (made : tree.makeDirectories parent = (.ok (), later))
    (text : String) :
    tree.perform (Files.writeText path text).run = later.perform (Files.replaceText path text) := by
  rcases Files.run_writeText path text with ⟨unnamed, direct⟩ | ⟨other, foundToo, throughParent⟩
  · obtain rfl := unnamed parent found
    obtain rfl : tree = later := (Prod.mk.inj made).2
    rw [direct]
  · obtain rfl : parent = other := Option.some.inj (found.symm.trans foundToo)
    have answered : answer (.makeDirectories parent) tree = (.ok (), later) := made
    rw [throughParent]
    exact perform_question answered _

/-- A file is replaced at once when its directory is there. -/
theorem perform_writeText
    {path : String}
    (there : ∀ parent, Path.parent? path = some parent →
      tree.makeDirectories parent = (.ok (), tree))
    (text : String) :
    tree.perform (Files.writeText path text).run = tree.perform (Files.replaceText path text) := by
  rcases Files.run_writeText path text with ⟨-, direct⟩ | ⟨parent, found, -⟩
  · rw [direct]
  · exact perform_writeText_of_made found (there parent found) text

end Perform

end FileTree

/-! ## Replacing a file -/

namespace Files

section Replacing

variable
  {tree staged moved : FileTree}
  {path text : String}

theorem answer_write
    {content : Bytes}
    (written : tree.write path content = .ok staged) :
    FileTree.answer (.write path content) tree = (.ok (), staged) := by
  change tree.settle (tree.write path content) = _
  rw [written]
  rfl

/-- Nothing changes when the staging file of a text cannot be written. -/
theorem perform_replaceText_of_error
    {fault : FileFault}
    (refused : tree.write (staging path) (Bytes.ofText text) = .error fault) :
    (tree.perform (replaceText path text)).2 = tree := by
  have answered : FileTree.answer (.write (staging path) (Bytes.ofText text)) tree =
      (.error fault, tree) := by
    change tree.settle (tree.write _ _) = _
    rw [refused]
    rfl
  exact congrArg Prod.snd (FileTree.perform_question answered _)

/-- A file is replaced when its staging file can be written and moved. -/
theorem perform_replaceText
    (written : tree.write (staging path) (Bytes.ofText text) = .ok staged)
    (replaced : staged.move (staging path) path = .ok moved) :
    tree.perform (replaceText path text) = (.ok (), moved) := by
  have answered : FileTree.answer (.move (staging path) path) staged = (.ok (), moved) := by
    change staged.settle (staged.move _ _) = _
    rw [replaced]
    rfl
  rw [replaceText]
  exact (FileTree.perform_question (answer_write written) _).trans
    (FileTree.perform_question answered _)

end Replacing

/-! ## Replacing a file of a directory -/

theorem staging_ne_of_length_lt
    {other : String}
    (shorter : other.length < 4)
    (name : String) :
    staging name ≠ other := by
  rintro rfl
  rw [staging, String.length_append] at shorter
  have suffix : ".tmp".length = 4 := rfl
  omega

/-- The name of a staging file is as plain as the name of the file. -/
theorem plain_staging {name : String} (plain : Path.Plain name) : Path.Plain (staging name) where
  leads := by
    rw [Path.isHere, Bool.or_eq_false_iff, beq_eq_false_iff_ne, beq_eq_false_iff_ne]
    constructor
    · exact staging_ne_of_length_lt (by decide) name
    · exact staging_ne_of_length_lt (by decide) name
  below := staging_ne_of_length_lt (by decide) name
  noSlash := by
    rw [staging, String.toList_append, List.mem_append, not_or]
    exact ⟨plain.noSlash, by decide⟩
  noNul := by
    rw [staging, String.toList_append, List.mem_append, not_or]
    exact ⟨plain.noNul, by decide⟩

/-- Names are told apart by their staging names. -/
theorem staging_inj {name other : String} (same : staging name = staging other) : name = other :=
  (String.append_left_inj ".tmp").mp same

/-- Different names of a directory stand for different places. -/
theorem place_ne
    {place : Location}
    {name other : String}
    (different : name ≠ other) :
    place ++ [name] ≠ place ++ [other] := by
  intro same
  exact different (List.singleton_inj.mp (List.append_cancel_left same))

/-- The staging file of a file stands beside it. -/
theorem beside_staging (place : Location) (name : String) :
    place ++ [staging name] ≠ place ++ [name] :=
  place_ne (staging_ne name)

section Directory

variable
  {tree : FileTree}
  {directory name : String}
  {place : Location}

/-- A file of a directory gets a new text, and nothing is left of what its staging file held. -/
theorem exists_perform_replaceText
    (sound : tree.Sound)
    (opened : tree.Opened directory place)
    (plain : Path.Plain name)
    (short : (staging name).utf8ByteSize ≤ FileTree.longestName)
    (writable : tree.Writable (place ++ [staging name]))
    (notDirectory : tree.standing? (place ++ [name]) ≠ some .directory)
    (text : String) :
    ∃ moved, tree.perform (replaceText (Path.join directory name) text) = (.ok (), moved) ∧
      tree.Becomes
        (Function.update (Function.update tree.standing? (place ++ [staging name]) none)
          (place ++ [name]) (some (.file (Bytes.ofText text))))
        moved := by
  have beside := beside_staging place name
  have shortName : name.utf8ByteSize ≤ FileTree.longestName := by
    rw [staging, String.utf8ByteSize_append] at short
    omega
  have stagingPath : staging (Path.join directory name) = Path.join directory (staging name) :=
    plain.join_append directory ".tmp"
  have located := opened.locate_join (plain_staging plain)
  rw [if_neg (Nat.not_lt.mpr short), ← stagingPath] at located
  obtain ⟨staged, written, becomes⟩ :=
    FileTree.exists_write sound located writable (Bytes.ofText text)
  have openedStaged := opened.continues (becomes.continues_update writable.notDirectory)
  have locatedStaged := openedStaged.locate_join (plain_staging plain)
  rw [if_neg (Nat.not_lt.mpr short), ← stagingPath] at locatedStaged
  have locatedName := openedStaged.locate_join plain
  rw [if_neg (Nat.not_lt.mpr shortName)] at locatedName
  have held : staged.standing? (place ++ [staging name]) = some (.file (Bytes.ofText text)) := by
    rw [becomes.standing, Function.update_self]
  have nameNotDirectory : staged.standing? (place ++ [name]) ≠ some .directory := by
    rwa [becomes.standing, Function.update_of_ne beside.symm]
  obtain ⟨moved, replaced, becomesMoved⟩ := FileTree.exists_move becomes.sound locatedStaged
    locatedName held nameNotDirectory
  refine ⟨moved, perform_replaceText written replaced, becomesMoved.sound, ?_,
    becomesMoved.working.trans becomes.working⟩
  rw [becomesMoved.standing, becomes.standing, Function.update_idem]

end Directory

end Files

end Valset
