/-!
# Paths

Paths of files as texts. Slashes separate the names on the way; a path that begins with a slash
starts at the root, any other one at the working directory. Empty names and the name `.` stand for
the directory that has been reached, and `..` for the one above it.
-/

namespace Valset
namespace Path

/-- The names of a path, empty ones and dots included. -/
def names (path : String) : List String :=
  (path.toList.splitOn '/').map String.ofList

/-- Whether a path starts at the root. -/
def isAbsolute (path : String) : Bool :=
  path.toList.head? == some '/'

/-- Whether a name stands for the directory that has been reached. -/
def isHere (name : String) : Bool :=
  name == "" || name == "."

/-- A path below a directory; an absolute path does not depend on the directory. -/
def join (directory path : String) : String :=
  if isAbsolute path || directory == "" then path
  else if directory.toList.getLast? == some '/' then directory ++ path
  else directory ++ "/" ++ path

/-- Names without those at their end that lead nowhere. -/
def dropHere (names : List String) : List String :=
  (names.reverse.dropWhile isHere).reverse

/-- The path that leads through names from a start. -/
def through (start : String) (names : List String) : String :=
  start ++ "/".intercalate names

/-- The directory in which a path ends, as the text of the path gives it: the text in front of the
last name that leads somewhere. The root and the empty path have none. -/
def parent? (path : String) : Option String :=
  let (start, rest) :=
    match names path with
    | "" :: rest => if isAbsolute path then ("/", rest) else ("", [])
    | "." :: rest => (".", if rest.isEmpty then [] else "" :: rest)
    | rest => ("", rest)
  match (dropHere rest).reverse with
  | [] => if start == "." then some "" else none
  | _ :: above => some (through start (dropHere above.reverse))

end Path
end Valset
