/-!
# Grammars of command lines

What a program accepts on its command line: for each command the options and flags with their names,
and the arguments that stand at a position. A description of arguments also says which value the
texts that are given for them stand for.
-/

namespace Valset
namespace CommandLine

/-- Why a command line does not name a command that can be run. -/
inductive UsageError
  | help
  | version
  | nothingGiven
  | missingCommand
  | unknownCommand
  | unknownArgument
  | missingArgument
  | invalidChoice
  | invalidValue
  | conflict
  | needlessValue
deriving DecidableEq, Repr

/-- How the text of an argument is read, and how a text is refused that stands for no value. -/
structure ArgumentReader (α : Type) where
  read : String → Option α
  refusal : UsageError := .invalidValue

/-- How an argument is given. -/
inductive ArgumentForm
  | position
  | option
  | flag
deriving DecidableEq, Repr

/-- Whether an argument has to be given. -/
inductive ArgumentNeed
  | never
  | always
  | unless (other : String)
deriving DecidableEq, Repr

/-- One argument of a command. An option may also come from a variable of the environment, and may
exclude other arguments. -/
structure Argument where
  name : String
  form : ArgumentForm
  letter : Option Char := none
  setting : Option String := none
  need : ArgumentNeed := .never
  repeats : Bool := false
  rivals : List String := []
  refusal? : String → Option UsageError := fun _ => none

namespace Argument

/-- An option with a value. -/
def option (name : String) : Argument where
  name
  form := .option

/-- An argument at a position. -/
def position (name : String) : Argument where
  name
  form := .position

/-- An option without value. -/
def flag (name : String) : Argument where
  name
  form := .flag

/-- An argument whose texts must be readable. -/
def reading {α : Type} (argument : Argument) (reader : ArgumentReader α) : Argument :=
  { argument with
    refusal? := fun text => if (reader.read text).isSome then none else some reader.refusal }

end Argument

/-- Where the texts of an argument come from. -/
inductive GivenBy
  | environment
  | commandLine
deriving DecidableEq, Repr

/-- The texts that are given for an argument. -/
structure Given where
  name : String
  source : GivenBy
  texts : List String

/-- The texts that are given for an argument in a list: the first ones on the command line, else the
first ones in the environment. -/
def Given.texts? (given : List Given) (name : String) : Option (List String) :=
  let of (source : GivenBy) : Option Given :=
    given.find? fun entry => entry.name == name && entry.source == source
  (of .commandLine <|> of .environment).map (·.texts)

/-- A description of arguments, and the value that is made of what is given for them. -/
structure Arguments (α : Type) where
  parts : List Argument
  build : List Given → Option α

namespace Arguments

variable {α β : Type}

instance : Functor Arguments where
  map f arguments := { arguments with build := fun given => f <$> arguments.build given }

instance : Applicative Arguments where
  pure value := { parts := [], build := fun _ => some value }
  seq functions arguments :=
    { parts := functions.parts ++ (arguments ()).parts
      build := fun given => functions.build given <*> (arguments ()).build given }

/-- An argument that may be given. -/
def optional (argument : Argument) (reader : ArgumentReader α) : Arguments (Option α) where
  parts := [argument.reading reader]
  build given :=
    match Given.texts? given argument.name with
    | none => some none
    | some [text] => some <$> reader.read text
    | some _ => none

/-- An argument with a value for the case that it is not given. -/
def withDefault (argument : Argument) (reader : ArgumentReader α) (default : α) : Arguments α :=
  (·.getD default) <$> optional argument reader

/-- An argument that must be given. -/
def required (argument : Argument) (reader : ArgumentReader α) : Arguments α where
  parts := [{ argument.reading reader with need := .always }]
  build given :=
    match Given.texts? given argument.name with
    | some [text] => reader.read text
    | _ => none

/-- An argument that may be given many times. -/
def many (argument : Argument) (reader : ArgumentReader α) : Arguments (List α) where
  parts := [{ argument.reading reader with repeats := true }]
  build given := ((Given.texts? given argument.name).getD []).mapM reader.read

/-- An option without value. -/
def flag (argument : Argument) : Arguments Bool where
  parts := [argument]
  build given := some (Given.texts? given argument.name).isSome

/-- Arguments that stand for a value together. -/
def ofOption (arguments : Arguments (Option α)) : Arguments α :=
  { arguments with build := fun given => (arguments.build given).join }

end Arguments

/-- The commands of a program: one with its arguments, or a choice by name. -/
inductive Grammar (α : Type)
  | command (arguments : Arguments α)
  | choice (commands : List (String × Grammar α))

namespace Grammar

variable {α β : Type}

/-- The own arguments of a command. -/
def parts : Grammar α → List Argument
  | command arguments => arguments.parts
  | choice _ => []

/-- The commands to choose from. -/
def commands : Grammar α → List (String × Grammar α)
  | command _ => []
  | choice commands => commands

/-- A choice of commands without choices of their own. -/
def ofCommands (wrap : β → α) (commands : List (String × Arguments β)) : Grammar α :=
  choice (commands.map fun entry => (entry.1, command (wrap <$> entry.2)))

end Grammar

/-- What a program accepts: its commands, options that may stand behind each of them, and whether it
tells its version. -/
structure Usage (γ α : Type) where
  grammar : Grammar α
  shared : Arguments γ
  hasVersion : Bool

end CommandLine
end Valset
