import Valset.Text.Quoted

/-!
# Outlines

A value laid out over several lines: each field of a record stands on a line of its own, deeper by
four blanks, and ends with a comma.
-/

namespace Valset
namespace Text

/-- A value that can be laid out. -/
inductive Outline
  | word (text : String)
  | record (name : String) (fields : List (String × Outline))
  | wrapped (name : String) (content : Outline)

namespace Outline

/-- A text between quotes. -/
def quoted (text : String) : Outline :=
  word (Text.quoted text)

/-- A text between quotes in which quotes of both kinds are marked. -/
def quotedPath (text : String) : Outline :=
  let mark (c : Char) : List Char := if c = '\'' then ['\\', c] else quotedChar '"' c
  word (String.ofList ('"' :: text.toList.flatMap mark ++ ['"']))

/-- What may be missing. -/
def ofOption (content : Option Outline) : Outline :=
  match content with
  | some content => wrapped "Some" content
  | none => word "None"

/-- Lines with an end behind the last one. -/
def closeWith (ending : String) : List String → List String
  | [] => [ending]
  | [last] => [last ++ ending]
  | line :: rest => line :: closeWith ending rest

/-- Lines with a beginning in front of the first one. -/
def openWith (beginning : String) : List String → List String
  | [] => [beginning]
  | first :: rest => (beginning ++ first) :: rest

/-- Lines that stand deeper. -/
def deeper (lines : List String) : List String :=
  lines.map ("    " ++ ·)

mutual

/-- The lines of a value. -/
def lines : Outline → List String
  | word text => [text]
  | record name fields => [name ++ " \x7b"] ++ deeper (fieldLines fields) ++ ["\x7d"]
  | wrapped name content => [name ++ "("] ++ deeper (closeWith "," content.lines) ++ [")"]

/-- The lines of the fields of a record. -/
def fieldLines : List (String × Outline) → List String
  | [] => []
  | (name, content) :: rest =>
    openWith (name ++ ": ") (closeWith "," content.lines) ++ fieldLines rest

end

/-- The layout of a value. -/
def text (outline : Outline) : String :=
  "\n".intercalate outline.lines

end Outline
end Text
end Valset
