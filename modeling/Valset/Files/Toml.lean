import Valset.Files
import Valset.Toml.Document
import Valset.Toml.Printer

/-!
# Files that hold TOML
-/

namespace Valset
namespace Files

/-- Reads a file that holds TOML. The reader sees its JSON value. -/
def readToml {α : Type} (path : String) (read : Json.Reader α) : FileProgram α := do
  let text ← readText path
  match (Toml.parse? text).bind fun fields => read (Toml.table fields).toJson with
  | some value => return value
  | none => throw (.readToml path)

/-- Writes a value as TOML, which only tables allow. -/
def writeToml (path : String) (value : Option Toml) : FileProgram Unit :=
  match value.bind Toml.print? with
  | some text => writeText path text
  | none => throw (.writeToml path)

end Files
end Valset
