import Valset.Files

/-!
# Trees of files

A system of files as a value: places with directories, files and devices, and the contents of the
files. A file that has been opened is known by its number, which stays with it when it is moved.
-/

namespace Valset

/-- The names on the way from the root. -/
abbrev Location := List String

/-- What stands at a place. A device takes everything and forgets it, or has no room at all. -/
inductive FileEntry
  | directory
  | file (number : Nat)
  | device (isFull : Bool)
deriving DecidableEq, Repr

/-- A file that has been opened for writing at its end, or a device. -/
inductive FileHandle
  | file (number : Nat)
  | device (isFull : Bool)
deriving DecidableEq, Repr

/-- A system of files. -/
structure FileTree where
  entries : List (Location × FileEntry)
  contents : List (Nat × Bytes)
  used : Nat
  working : Location

namespace FileTree

/-- The working directory. -/
def workingDirectory : Location := ["work"]

/-- A system with an empty working directory and two devices. -/
def empty : FileTree where
  entries := [
    ([], .directory), (workingDirectory, .directory), (["dev"], .directory),
    (["dev", "full"], .device true), (["dev", "null"], .device false)]
  contents := []
  used := 0
  working := workingDirectory

/-- What stands at a place. -/
def entry? (tree : FileTree) (location : Location) : Option FileEntry :=
  tree.entries.lookup location

/-- Puts an entry at a place, in place of what stood there. -/
def setEntry (tree : FileTree) (location : Location) (entry : FileEntry) : FileTree :=
  { tree with entries := (location, entry) :: tree.entries.filter (·.1 != location) }

/-- Takes away what stands at a place. -/
def dropEntry (tree : FileTree) (location : Location) : FileTree :=
  { tree with entries := tree.entries.filter (·.1 != location) }

/-- The content of a file. -/
def content (tree : FileTree) (number : Nat) : Bytes :=
  (tree.contents.lookup number).getD []

/-- Gives a file a content. -/
def setContent (tree : FileTree) (number : Nat) (content : Bytes) : FileTree :=
  { tree with contents := (number, content) :: tree.contents.filter (·.1 != number) }

/-- Makes a new file with a content at a place. -/
def addFile (tree : FileTree) (location : Location) (content : Bytes) : FileTree :=
  let tree := (tree.setEntry location (.file tree.used)).setContent tree.used content
  { tree with used := tree.used + 1 }

/-- Fails unless a place is a directory. -/
def needDirectory (tree : FileTree) (location : Location) : Except FileFault Unit :=
  match tree.entry? location with
  | some .directory => .ok ()
  | some _ => .error .notDirectory
  | none => .error .notFound

/-- The place above another one; the root is above itself. -/
def above (location : Location) : Location :=
  location.dropLast

/-- How many bytes a name may have. -/
def longestName : Nat := 255

/-- Where a name leads from a place, which must be a directory. -/
def step (tree : FileTree) (location : Location) (name : String) : Except FileFault Location := do
  tree.needDirectory location
  if Path.isHere name then return location
  if name == ".." then return above location
  if name.utf8ByteSize > longestName then throw .nameTooLong
  return location ++ [name]

/-- Where a path starts. -/
def start (tree : FileTree) (path : String) : Location :=
  if Path.isAbsolute path then [] else tree.working

/-- Fails if a path holds a character that no name may hold. -/
def checkPath (path : String) : Except FileFault Unit :=
  if path.toList.contains '\x00' then .error .nameHoldsNul else .ok ()

/-- The place of a path; there may be nothing at it, but there is a directory above it. -/
def locate (tree : FileTree) (path : String) : Except FileFault Location := do
  checkPath path
  if path == "" then throw .notFound
  (Path.names path).foldlM tree.step (tree.start path)

/-- The content at the place of a path. -/
def read (tree : FileTree) (path : String) : Except FileFault Bytes := do
  match tree.entry? (← tree.locate path) with
  | some (.file number) => return tree.content number
  | some (.device _) => return []
  | some .directory => throw .isDirectory
  | none => throw .notFound

/-- Writes a whole file. -/
def write (tree : FileTree) (path : String) (content : Bytes) : Except FileFault FileTree := do
  let location ← tree.locate path
  match tree.entry? location with
  | some (.file number) => return tree.setContent number content
  | some (.device isFull) =>
    if isFull && !content.isEmpty then throw .noSpace
    return tree
  | some .directory => throw .isDirectory
  | none => return tree.addFile location content

/-- Moves a file, in place of the one that stands where it goes. -/
def move (tree : FileTree) (source target : String) : Except FileFault FileTree := do
  let source ← tree.locate source
  let target ← tree.locate target
  match tree.entry? source, tree.entry? target with
  | none, _ => throw .notFound
  | some .directory, _ => throw .isDirectory
  | some _, some .directory => throw .isDirectory
  | some entry, _ => return (tree.dropEntry source).setEntry target entry

/-- The tree that an attempt leaves behind, with the fault that it ran into. -/
def settle (tree : FileTree) : Except FileFault FileTree → Except FileFault Unit × FileTree
  | .ok changed => (.ok (), changed)
  | .error fault => (.error fault, tree)

/-- Goes along names from a place and makes the directories that are missing. Those made before a
fault stay. -/
def makeAlong (tree : FileTree) (location : Location) :
    List String → Except FileFault Unit × FileTree
  | [] => (.ok (), tree)
  | name :: rest =>
    match tree.step location name with
    | .error fault => (.error fault, tree)
    | .ok next =>
      match tree.entry? next with
      | some .directory => tree.makeAlong next rest
      | none => (tree.setEntry next .directory).makeAlong next rest
      | some _ => (.error (if rest.isEmpty then .alreadyThere else .notDirectory), tree)

/-- Makes a directory and those above it. -/
def makeDirectories (tree : FileTree) (path : String) : Except FileFault Unit × FileTree :=
  match checkPath path with
  | .error fault => (.error fault, tree)
  | .ok () =>
    if path == "" then (.ok (), tree)
    else tree.makeAlong (tree.start path) (Path.names path)

/-- Whether there is something at the place of a path. -/
def isThere (tree : FileTree) (path : String) : Bool :=
  match tree.locate path with
  | .ok location => (tree.entry? location).isSome
  | .error _ => false

/-- The names in a directory in ascending order. -/
def list (tree : FileTree) (path : String) : Except FileFault (List String) := do
  let location ← tree.locate path
  tree.needDirectory location
  let names := tree.entries.filterMap fun (place, _) =>
    if place != [] && above place == location then place.getLast? else none
  return names.mergeSort fun left right => !(right < left)

/-- Opens a file for writing at its end; it is made if there is none. -/
def openAtEnd (tree : FileTree) (path : String) : Except FileFault (FileHandle × FileTree) := do
  let location ← tree.locate path
  match tree.entry? location with
  | some (.file number) => return (.file number, tree)
  | some (.device isFull) => return (.device isFull, tree)
  | some .directory => throw .isDirectory
  | none => return (.file tree.used, tree.addFile location [])

/-- Writes at the end of an open file. -/
def append (tree : FileTree) (handle : FileHandle) (content : Bytes) : Except FileFault FileTree :=
  match handle with
  | .file number => .ok (tree.setContent number (tree.content number ++ content))
  | .device isFull => if isFull && !content.isEmpty then .error .noSpace else .ok tree

/-- Puts a file at its place; the directory in which it stands is made first. -/
def place (tree : FileTree) (path : String) (content : Bytes) : Except FileFault Unit × FileTree :=
  match tree.makeDirectories ((Path.parent? path).getD "") with
  | (.error fault, tree) => (.error fault, tree)
  | (.ok (), tree) => tree.settle (tree.write path content)

/-- Answers a question. -/
def answer : (question : FileQuestion) → StateM FileTree question.Reply
  | .read path => fun tree => (tree.read path, tree)
  | .write path content => fun tree => tree.settle (tree.write path content)
  | .move source target => fun tree => tree.settle (tree.move source target)
  | .makeDirectories path => fun tree => tree.makeDirectories path
  | .isThere path => fun tree => (tree.isThere path, tree)

end FileTree
end Valset
