import Valset.CommandLine.Dialogue
import Valset.Files.Path

/-!
# Variables in a file

A file of lines `NAME=value` may hold what the environment lacks. A value may stand in quotes; in
single quotes every character stands for itself, elsewhere a backslash marks the next character and
a dollar sign names another variable. A quoted value may go over several lines, and a comment begins
with `#` behind a blank.
-/

namespace Valset
namespace SettingsFile

/-- The name of the file. -/
def fileName : String := ".env"

/-! ## Lines -/

/-- Where a line is with respect to quotes. -/
inductive QuoteState
  | outside
  | escaped
  | double
  | doubleEscaped
  | single
  | singleEscaped
  | blank
deriving DecidableEq, Repr

namespace QuoteState

/-- Where a line is behind a character outside of quotes. -/
def afterOutside (c : Char) : QuoteState :=
  if c = '\\' then escaped
  else if c = '"' then double
  else if c = '\'' then single
  else outside

/-- Where a line is behind a character. -/
def next (state : QuoteState) (c : Char) : QuoteState :=
  match state with
  | blank => afterOutside c
  | escaped => outside
  | outside =>
    if Text.isBlank c && c != '\n' && c != '\r' then blank else afterOutside c
  | double => if c = '\\' then doubleEscaped else if c = '"' then outside else double
  | doubleEscaped => double
  | single => if c = '\\' then singleEscaped else if c = '\'' then outside else single
  | singleEscaped => single

end QuoteState

/-- The part of a line in front of a comment, and where it ends if there is no comment. -/
def scan (state : QuoteState) : List Char → List Char × Option QuoteState
  | [] => ([], some state)
  | c :: rest =>
    if state = .blank ∧ c = '#' then ([], none)
    else
      let (taken, ending) := scan (state.next c) rest
      (c :: taken, ending)

/-- The lines of a text, each with its line break. -/
def splitLines : List Char → List (List Char)
  | [] => []
  | '\n' :: rest => ['\n'] :: splitLines rest
  | c :: rest =>
    match splitLines rest with
    | [] => [[c]]
    | line :: lines => (c :: line) :: lines

/-- A line without its line break. -/
def dropLineBreak (line : List Char) : List Char :=
  match line.reverse with
  | '\n' :: '\r' :: rest => rest.reverse
  | '\n' :: rest => rest.reverse
  | _ => line

/-- Puts lines together that belong to one quoted value. A value that is not closed gives none. -/
def gather (earlier : List Char) (state : QuoteState) :
    List (List Char) → List (Option (List Char))
  | [] => if state = .outside then [] else [none]
  | line :: rest =>
    let whole := earlier ++ line
    if (Text.dropBlanks whole).head? = some '#' then gather [] .outside rest
    else
      match scan state line with
      | (taken, none) => some (earlier ++ taken) :: gather [] .outside rest
      | (_, some .outside) => some (dropLineBreak whole) :: gather [] .outside rest
      | (_, some state) => gather whole state rest

/-! ## Values -/

/-- A part of a value: a character, or the value of another variable. -/
inductive Piece
  | char (c : Char)
  | variable (name : String)

/-- How a value is read at some place. The names of other variables are collected in reverse. -/
inductive Mode
  | plain
  | escaped (isDouble : Bool)
  | double
  | single
  | name (isDouble : Bool) (letters : List Char)
  | braced (isDouble : Bool) (letters : List Char)
  | ending

/-- The mode in or outside of double quotes. -/
def Mode.ofQuotes (isDouble : Bool) : Mode :=
  if isDouble then .double else .plain

/-- The variable whose letters have been collected. -/
def variableOf (letters : List Char) : Piece :=
  .variable (String.ofList letters.reverse)

/-- The character that a backslash and a character stand for. -/
def unescape? (c : Char) : Option Char :=
  if c = '\\' ∨ c = '\'' ∨ c = '"' ∨ c = '$' ∨ c = ' ' then some c
  else if c = 'n' then some '\n'
  else none

/-- The parts of a value; none if it is malformed. -/
def pieces? (mode : Mode) : List Char → Option (List Piece)
  | [] =>
    match mode with
    | .double | .single | .braced _ _ | .name true _ => none
    | .name false letters => some [variableOf letters]
    | .plain | .ending | .escaped _ => some []
  | c :: rest =>
    match mode with
    | .ending =>
      if c = ' ' ∨ c = '\t' then pieces? .ending rest else if c = '#' then some [] else none
    | .escaped isDouble => do
      let c ← unescape? c
      return .char c :: (← pieces? (.ofQuotes isDouble) rest)
    | .single =>
      if c = '\'' then pieces? .plain rest else (.char c :: ·) <$> pieces? .single rest
    | .name isDouble letters =>
      if c.isAlphanum then pieces? (.name isDouble (c :: letters)) rest
      else if c = '\x7b' ∧ letters = [] then pieces? (.braced isDouble []) rest
      else if c = '$' then (variableOf letters :: ·) <$> pieces? (.name isDouble []) rest
      else (fun tail => variableOf letters :: .char c :: tail) <$>
        pieces? (.ofQuotes isDouble) rest
    | .braced isDouble letters =>
      if c = '\x7d' then (variableOf letters :: ·) <$> pieces? (.ofQuotes isDouble) rest
      else pieces? (.braced isDouble (c :: letters)) rest
    | .double =>
      if c = '$' then pieces? (.name true []) rest
      else if c = '"' then pieces? .plain rest
      else if c = '\\' then pieces? (.escaped true) rest
      else (.char c :: ·) <$> pieces? .double rest
    | .plain =>
      if c = '$' then pieces? (.name false []) rest
      else if c = '\'' then pieces? .single rest
      else if c = '"' then pieces? .double rest
      else if c = '\\' then pieces? (.escaped false) rest
      else if c = ' ' ∨ c = '\t' then pieces? .ending rest
      else (.char c :: ·) <$> pieces? .plain rest

/-! ## Entries -/

/-- Whether a character may stand in a name behind the first one. -/
def isNameChar (c : Char) : Bool :=
  c.isAlphanum || c == '_' || c == '.'

/-- Whether nothing is left but a comment. -/
def isVoid : List Char → Bool
  | [] => true
  | c :: _ => c == '#'

/-- Takes a name and the blanks behind it. -/
def takeName? (chars : List Char) : Option (String × List Char) :=
  match chars with
  | first :: _ =>
    if first.isAlpha || first == '_' then
      some (String.ofList (chars.takeWhile isNameChar),
        Text.dropBlanks (chars.dropWhile isNameChar))
    else none
  | [] => none

/-- Takes the name of a variable and the sign behind it. The word `export` may stand in front. -/
def takeTarget? (chars : List Char) : Option (String × List Char) := do
  match ← takeName? chars with
  | (name, '=' :: rest) => return (name, rest)
  | ("export", rest) =>
    match ← takeName? rest with
    | (name, '=' :: rest) => return (name, rest)
    | _ => none
  | _ => none

/-- What a line that is not empty says: a variable and the parts of its value. -/
def entry? (line : List Char) : Option (String × List Piece) := do
  let (name, rest) ← takeTarget? line
  let rest := Text.dropBlanks rest
  if isVoid rest then return (name, [])
  return (name, ← pieces? .plain rest)

/-- What lines say, up to the first one that is malformed. -/
def entries : List (Option (List Char)) → List (String × List Piece)
  | [] => []
  | none :: _ => []
  | some line :: rest =>
    let line := Text.dropBlanks line
    if isVoid line then entries rest
    else
      match entry? line with
      | some entry => entry :: entries rest
      | none => []

/-- What a text says, up to the first line that is malformed. -/
def parse (text : String) : List (String × List Piece) :=
  entries (gather [] .outside (splitLines text.toList))

/-! ## Use -/

/-- The value of a variable, which the environment holds or else an earlier line. -/
def valueOf (known : List (String × String)) (name : String) :
    Program CommandDialogue (Option String) :=
  .ask (.setting name) fun (value : Option String) => .done (value <|> known.lookup name)

/-- The text that parts stand for. -/
def resolve (known : List (String × String)) : List Piece → Program CommandDialogue String
  | [] => return ""
  | .char c :: rest => return c.toString ++ (← resolve known rest)
  | .variable name :: rest => do
    let value ← valueOf known name
    return value.getD "" ++ (← resolve known rest)

/-- The variables that entries set besides known ones; the first value for a name counts. -/
def resolveAll (known : List (String × String)) :
    List (String × List Piece) → Program CommandDialogue (List (String × String))
  | [] => return known
  | (name, pieces) :: rest => do
    let value ← resolve known pieces
    let known := if (known.lookup name).isSome then known else known ++ [(name, value)]
    resolveAll known rest

/-- The variables that the file of the working directory sets. -/
def load : Program CommandDialogue (List (String × String)) :=
  .ask (.file (.read fileName)) fun (content : Except FileFault Bytes) =>
    match content.bind Files.textOf with
    | .ok text => resolveAll [] (parse text)
    | .error _ => return []

/-- The same program in an environment that holds more variables. -/
def supply {α : Type} (known : List (String × String)) :
    Program CommandDialogue α → Program CommandDialogue α
  | .done result => .done result
  | .ask (.setting name) next =>
    .ask (.setting name) fun (value : Option String) =>
      supply known (next (value <|> known.lookup name))
  | .ask question next => .ask question fun answer => supply known (next answer)

end SettingsFile
end Valset
