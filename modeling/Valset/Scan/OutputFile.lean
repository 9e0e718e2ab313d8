import Valset.Files.Tree
import Valset.Scan.Output

/-!
# Outputs on prepared files

An output whose bytes go to an open file of a tree, and the text that an output is given by records.
-/

namespace Valset
namespace Scan

/-- An output that goes to a file, with what waits in its buffer. -/
structure OutputFile where
  path : String
  handle : FileHandle
  waiting : Bytes := []

namespace OutputFile

/-- Opens an output at the end of a file. -/
def openAt (tree : FileTree) (path : String) : Except ScanError (OutputFile × FileTree) :=
  match tree.openAtEnd path with
  | .error fault => .error (.output path fault)
  | .ok (handle, tree) => .ok ({ path, handle }, tree)

/-- Takes a step of an output. -/
def perform (output : OutputFile) (step : String → OutputProgram ScanError Unit) :
    StateM FileTree (Except ScanError Unit × OutputFile) := do
  let deliver (bytes : Bytes) : StateM FileTree (Except FileFault Unit) := fun tree =>
    tree.settle (tree.append output.handle bytes)
  let (result, waiting) ← Program.run deliver ((step output.path).run.run output.waiting)
  return (result, { output with waiting })

end OutputFile

/-- What records look like on an output that takes all bytes. -/
def Output.textOf (records : List EventRecord) : String :=
  let deliver (bytes : Bytes) : StateM Bytes (Except FileFault Unit) := fun printed =>
    (.ok (), printed ++ bytes)
  let step : OutputProgram ScanError Unit := do
    records.forM (write standardName)
    flush standardName
  (Text.ofUtf8? ((Program.run deliver (step.run.run [])).run []).2).getD ""

end Scan
end Valset
