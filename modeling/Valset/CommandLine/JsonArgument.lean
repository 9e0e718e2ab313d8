import Valset.Files
import Valset.Text.Blank

/-!
# Arguments that hold JSON

An argument is the JSON text itself if it begins like an object or an array, else the path of a file
with the text.
-/

namespace Valset
namespace CommandLine

/-- Why an argument does not give a value. -/
inductive JsonArgumentError
  | notJson
  | file (cause : FileError)
deriving DecidableEq, Repr

/-- Whether a text begins like an object or an array. -/
def startsContainer (text : String) : Bool :=
  match Text.dropBlanks text.toList with
  | c :: _ => c == '\x7b' || c == '['
  | [] => false

/-- Reads the value of an argument. -/
def readJsonArgument {α : Type} (read : Json.Reader α) (argument : String) :
    ExceptT JsonArgumentError (Program FileDialogue) α :=
  if startsContainer argument then
    match (Json.parse argument).bind read with
    | some value => return value
    | none => throw .notJson
  else ExceptT.adapt .file (Files.readJson argument read)

end CommandLine
end Valset
