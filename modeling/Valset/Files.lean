import Valset.Files.Path
import Valset.Json.Parser
import Valset.Json.Printer
import Valset.Json.Reader
import Valset.Program
import Valset.Text.Utf8

/-!
# Files

Reading and writing whole files. A file is written beside its place first and then moved there, so
that whoever reads it finds either the old text or the new one. Every error names the path that it
is about.
-/

namespace Valset

/-- What a system of files reports when it cannot do what is asked. -/
inductive FileFault
  | notFound
  | isDirectory
  | notDirectory
  | alreadyThere
  | noSpace
  | nameTooLong
  | nameHoldsNul
  | notText
  | other (text : String)
deriving DecidableEq, Repr

/-- The wording of a fault. -/
def FileFault.text : FileFault → String
  | notFound => "No such file or directory (os error 2)"
  | isDirectory => "Is a directory (os error 21)"
  | notDirectory => "Not a directory (os error 20)"
  | alreadyThere => "File exists (os error 17)"
  | noSpace => "No space left on device (os error 28)"
  | nameTooLong => "File name too long (os error 36)"
  | nameHoldsNul => "file name contained an unexpected NUL byte"
  | notText => "stream did not contain valid UTF-8"
  | other text => text

/-- A question to a system of files. Moving a file replaces the one at its new place. -/
inductive FileQuestion
  | read (path : String)
  | write (path : String) (content : Bytes)
  | move (source target : String)
  | makeDirectories (path : String)
  | isThere (path : String)

/-- The answer to a question. -/
def FileQuestion.Reply : FileQuestion → Type
  | .read _ => Except FileFault Bytes
  | .write _ _ => Except FileFault Unit
  | .move _ _ => Except FileFault Unit
  | .makeDirectories _ => Except FileFault Unit
  | .isThere _ => Bool

/-- Conversations with a system of files. -/
def FileDialogue : Dialogue where
  Question := FileQuestion
  Answer := FileQuestion.Reply

/-- Why a file cannot be read or written. -/
inductive FileError
  | read (path : String) (fault : FileFault)
  | write (path : String) (fault : FileFault)
  | makeDirectories (path : String) (fault : FileFault)
  | json (path : String)
  | readToml (path : String)
  | writeToml (path : String)
deriving DecidableEq, Repr

/-- The wording of an error. -/
def FileError.text : FileError → String
  | read path _ => s!"File read error at path {path}"
  | write path _ => s!"File write error at path {path}"
  | makeDirectories path _ => s!"Directory creation error at path {path}"
  | json path => s!"JSON parse error at path {path}"
  | readToml path => s!"TOML deserialize error at path {path}"
  | writeToml path => s!"TOML serialize error at path {path}"

/-- A computation that uses files and may fail. -/
abbrev FileProgram := ExceptT FileError (Program FileDialogue)

namespace Files

/-- Asks one question. -/
def ask (question : FileQuestion) : FileProgram question.Reply :=
  ExceptT.mk (.ask question fun reply => .done (.ok reply))

/-- The text that bytes stand for. -/
def textOf (content : Bytes) : Except FileFault String :=
  match Text.ofUtf8? content with
  | some text => .ok text
  | none => .error .notText

/-- The text of a file, or what keeps it from being read. -/
def tryReadText (path : String) : FileProgram (Except FileFault String) := do
  let content : Except FileFault Bytes ← ask (.read path)
  return content.bind textOf

/-- The text of a file. -/
def readText (path : String) : FileProgram String := do
  match ← tryReadText path with
  | .ok text => return text
  | .error fault => throw (.read path fault)

/-- Makes a directory and those above it. -/
def makeDirectories (path : String) : FileProgram Unit := do
  match ← (ask (.makeDirectories path) : FileProgram (Except FileFault Unit)) with
  | .ok () => return ()
  | .error fault => throw (.makeDirectories path fault)

/-- The place beside a file where its new text is written first. -/
def staging (path : String) : String :=
  path ++ ".tmp"

/-- Goes on after a step of writing a file. -/
def orWriteError (path : String) : Except FileFault Unit → FileProgram Unit
  | .ok () => return ()
  | .error fault => throw (.write path fault)

/-- Writes a file; the directory in which it stands is made first. -/
def writeText (path text : String) : FileProgram Unit := do
  match Path.parent? path with
  | some "" => pure ()
  | some parent => makeDirectories parent
  | none => pure ()
  orWriteError path (← ask (.write (staging path) (Bytes.ofText text)))
  orWriteError path (← ask (.move (staging path) path))

/-- The value that a JSON text of a file stands for. -/
def valueOf {α : Type} (path : String) (read : Json.Reader α) (text : String) : FileProgram α :=
  match (Json.parse text).bind read with
  | some value => return value
  | none => throw (.json path)

/-- Reads a file that holds JSON. -/
def readJson {α : Type} (path : String) (read : Json.Reader α) : FileProgram α := do
  valueOf path read (← readText path)

/-- Reads a file that holds JSON, if the file is there. -/
def readJsonIfThere {α : Type} (path : String) (read : Json.Reader α) :
    FileProgram (Option α) := do
  match ← tryReadText path with
  | .ok text => return some (← valueOf path read text)
  | .error .notFound => return none
  | .error fault => throw (.read path fault)

/-- Writes a value as indented JSON. -/
def writeJson (path : String) (value : Json) : FileProgram Unit :=
  writeText path value.indented

end Files
end Valset
