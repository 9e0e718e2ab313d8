import Valset.Id
import Valset.Json.Reader

/-!
# Identifiers in JSON

Identifiers and node ids stand in JSON as their texts.
-/

namespace Valset

/-- An identifier as JSON. -/
def Id.toJson {kind : IdKind} (id : Id kind) : Json :=
  .string id.display

/-- Reads an identifier. -/
def Id.ofJson? {kind : IdKind} : Json.Reader (Id kind)
  | .string text => (Id.parse text).toOption
  | _ => none

/-- A node id as JSON. -/
def NodeId.toJson (node : NodeId) : Json :=
  .string node.display

/-- Reads a node id. -/
def NodeId.ofJson? : Json.Reader NodeId
  | .string text => (NodeId.parse text).toOption
  | _ => none

end Valset
