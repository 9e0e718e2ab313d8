import Valset.Json.Printer
import Valset.Scan.Dialogue

/-!
# Lines of records

An output for records, one line of JSON each. What is written collects in a buffer, which is handed
over when it is flushed or when the next piece does not fit into it.
-/

namespace Valset
namespace Scan

/-- The handing over of bytes to whatever takes them. -/
def OutputDialogue : Dialogue where
  Question := Bytes
  Answer _ := Except FileFault Unit

/-- A step of an output; the bytes that wait in the buffer are its state. -/
abbrev OutputProgram (error : Type) := ExceptT error (StateT Bytes (Program OutputDialogue))

namespace Output

/-- How many bytes the buffer holds. -/
def capacity : Nat := 8192

/-- Hands bytes over. -/
def deliver (bytes : Bytes) : OutputProgram FileFault Unit := do
  let reply : Except FileFault Unit ←
    ExceptT.mk (StateT.lift (.ask bytes fun reply => .done (.ok reply)))
  ofExcept reply

/-- Hands over what waits in the buffer; it goes on waiting when that fails. -/
def flushBuffer : OutputProgram FileFault Unit := do
  let waiting ← get
  unless waiting.isEmpty do
    deliver waiting
    set ([] : Bytes)

/-- Takes a piece. -/
def push (piece : Bytes) : OutputProgram FileFault Unit := do
  if capacity < (← get).length + piece.length then flushBuffer
  if capacity ≤ piece.length then deliver piece
  else modify (· ++ piece)

/-- Takes the text of a record. -/
def pushRecord (record : EventRecord) : OutputProgram FileFault Unit :=
  record.toJson.pieces.forM fun piece => push (Bytes.ofText (String.ofList piece))

/-- The same step with its faults turned into errors. -/
def failWith {α : Type} (error : FileFault → ScanError) (step : OutputProgram FileFault α) :
    OutputProgram ScanError α :=
  ExceptT.mk do return (← step.run).mapError error

/-- Writes a record to an output with a name. -/
def write (name : String) (record : EventRecord) : OutputProgram ScanError Unit := do
  failWith .brokenRecord (pushRecord record)
  failWith (.output name) (push [0x0a])

/-- Hands over everything that was written to an output with a name. -/
def flush (name : String) : OutputProgram ScanError Unit :=
  failWith (.output name) flushBuffer

/-- The name of the standard output. -/
def standardName : String := "<stdout>"

end Output
end Scan
end Valset
