import Valset.CommandLine.Grammar

/-!
# Reading command lines

A command line is read word by word. Each command on the way has a level of its own, on which its
options are given; options that are shared may be given on every level, and the innermost one
counts. The word behind an option is its value unless it looks like an option itself, and behind two
dashes no word is an option. The levels are completed from the innermost one outwards.
-/

namespace Valset
namespace CommandLine

/-- How far one command of a command line has been read. An option whose value is still to come is
pending without texts. -/
structure Level (α : Type) where
  grammar : Grammar α
  parts : List Argument
  given : List Given := []
  pending : Option (Argument × List String) := none
  onlyPositions : Bool := false
  position : Nat := 0

/-- The rest of a command line behind the word `help`: the names of the command that is asked
about. -/
def helpAbout {α : Type} (grammar : Grammar α) : List String → UsageError
  | [] => .help
  | word :: rest =>
    match grammar.commands.lookup word with
    | some inner => helpAbout inner rest
    | none =>
      if word == "help" && rest.isEmpty && !grammar.commands.isEmpty then .help
      else .unknownCommand

namespace Level

variable {α : Type}

/-- The level of a command before anything has been read. An own argument takes the place of a
shared one with its name. -/
def start (shared : List Argument) (grammar : Grammar α) : Level α where
  grammar
  parts := grammar.parts ++
    shared.filter fun argument => !(grammar.parts.any (·.name == argument.name))

/-- What is given for an argument. -/
def entry? (level : Level α) (name : String) : Option Given :=
  level.given.find? (·.name == name)

/-- Takes texts for an argument. -/
def record (level : Level α) (source : GivenBy) (argument : Argument) (texts : List String) :
    Except UsageError (Level α) := do
  let earlier := level.entry? argument.name
  if earlier.isSome && !argument.repeats then throw .conflict
  match texts.findSome? argument.refusal? with
  | some refusal => throw refusal
  | none =>
    let entry := ⟨argument.name, source, (earlier.map (·.texts)).getD [] ++ texts⟩
    return { level with
      given := level.given.filter (·.name != argument.name) ++ [entry]
      pending := none }

/-- Takes what is pending; an option must have got its value. -/
def settle (level : Level α) : Except UsageError (Level α) :=
  match level.pending with
  | none => .ok level
  | some (_, []) => .error .invalidChoice
  | some (argument, texts) => level.record .commandLine argument texts

/-- Takes an option or a flag, with a value that is attached to it or without. -/
def takeOption (level : Level α) (argument : Argument) (attached : Option String) :
    Except UsageError (Level α) := do
  match argument.form, attached with
  | .flag, some _ => throw .needlessValue
  | .flag, none => (← level.settle).record .commandLine argument []
  | _, some text => (← level.settle).record .commandLine argument [text]
  | _, none => return { ← level.settle with pending := some (argument, []) }

/-- Settles what is pending and then tells what is asked for. -/
def tell (level : Level α) (request : UsageError) : Except UsageError (Level α) := do
  let _ ← level.settle
  throw request

/-- Takes an option with its long name. -/
def takeLong (level : Level α) (hasVersion : Bool) (name : String) (attached : Option String) :
    Except UsageError (Level α) :=
  match level.parts.find? fun argument => argument.form != .position && argument.name == name with
  | some argument => level.takeOption argument attached
  | none =>
    let request := if name == "help" then some UsageError.help
      else if name == "version" && hasVersion then some .version else none
    match request, attached with
    | none, _ => .error .unknownArgument
    | some _, some _ => .error .needlessValue
    | some request, none => level.tell request

/-- Takes options with their letters. What follows the letter of an option with a value is the
value. -/
def takeLetters (hasVersion : Bool) (level : Level α) : List Char → Except UsageError (Level α)
  | [] => .ok level
  | letter :: rest =>
    match level.parts.find? (·.letter == some letter) with
    | some argument =>
      if argument.form == .flag then do
        (← level.takeOption argument none).takeLetters hasVersion rest
      else
        match rest with
        | [] => level.takeOption argument none
        | '=' :: text => level.takeOption argument (some (String.ofList text))
        | text => level.takeOption argument (some (String.ofList text))
    | none =>
      if letter == 'h' then level.tell .help
      else if letter == 'V' && hasVersion then level.tell .version
      else .error .unknownArgument

/-- The arguments that stand at a position, in their order. -/
def positions (level : Level α) : List Argument :=
  level.parts.filter (·.form == .position)

/-- What a word is called that no position is left for. -/
def surplus (level : Level α) (word : String) : UsageError :=
  if level.grammar.commands.isEmpty then .unknownArgument
  else if level.onlyPositions && (level.grammar.commands.any (·.1 == word) || word == "help") then
    .unknownArgument
  else .unknownCommand

/-- Takes a word at the next position. -/
def takePosition (level : Level α) (word : String) : Except UsageError (Level α) :=
  match level.positions[level.position]? with
  | none => .error (level.surplus word)
  | some argument => do
    let level ← level.settle
    return { level with pending := some (argument, [word]), position := level.position + 1 }

/-- Whether an option waits for its value. -/
def isWaiting (level : Level α) : Bool :=
  match level.pending with
  | some (_, []) => true
  | _ => false

/-- Takes a word that is neither option nor command. -/
def takePlain (level : Level α) (word : String) : Except UsageError (Level α) :=
  match level.pending with
  | some (argument, []) => .ok { level with pending := some (argument, [word]) }
  | _ => level.takePosition word

/-- Takes a word that names no command. -/
def takeWord (level : Level α) (hasVersion : Bool) (word : String) :
    Except UsageError (Level α) :=
  if level.onlyPositions then level.takePosition word
  else
    match word.toList with
    | ['-', '-'] => .ok { level with onlyPositions := true }
    | '-' :: '-' :: rest =>
      let name := String.ofList (rest.takeWhile (· != '='))
      match rest.dropWhile (· != '=') with
      | [] => level.takeLong hasVersion name none
      | _ :: text => level.takeLong hasVersion name (some (String.ofList text))
    | '-' :: letter :: rest => level.takeLetters hasVersion (letter :: rest)
    | _ => level.takePlain word

/-- The command that a word names. -/
def command? (level : Level α) (word : String) : Option (Grammar α) :=
  if level.onlyPositions || level.isWaiting then none else level.grammar.commands.lookup word

/-- Whether a word asks for help about a command. -/
def asksForHelp (level : Level α) (word : String) : Bool :=
  word == "help" && !level.onlyPositions && !level.isWaiting && !level.grammar.commands.isEmpty

/-- Takes from the environment what is not given otherwise. -/
def addSettings (environment : String → Option String) (level : Level α) :
    Except UsageError (Level α) :=
  level.parts.foldlM (fun level argument =>
    match argument.setting.bind environment with
    | none => .ok level
    | some text =>
      if (level.entry? argument.name).isSome then .ok level
      else level.record .environment argument [text]) level

/-- Whether an argument is given together with one that it excludes. -/
def hasConflict (level : Level α) : Bool :=
  level.parts.any fun argument =>
    (level.entry? argument.name).isSome && argument.rivals.any fun name =>
      (level.entry? name).isSome

/-- Whether an argument is missing. -/
def lacks (level : Level α) (argument : Argument) : Bool :=
  (level.entry? argument.name).isNone &&
    match argument.need with
    | .never => false
    | .always => true
    | .unless other => (level.entry? other).isNone

/-- Completes a level. -/
def complete (environment : String → Option String) (isInnermost : Bool) (level : Level α) :
    Except UsageError (Level α) := do
  let level ← level.settle
  let level ← level.addSettings environment
  if isInnermost && !level.grammar.commands.isEmpty then
    throw (if level.given.isEmpty then .nothingGiven else .missingCommand)
  if level.hasConflict then throw .conflict
  if level.parts.any level.lacks then throw .missingArgument
  return level

end Level

variable {α γ : Type}

/-- Reads words on the innermost of some levels; the outer ones are listed from the inside. -/
def readWords (shared : List Argument) (hasVersion : Bool) (level : Level α)
    (outer : List (Level α)) : List String → Except UsageError (List (Level α))
  | [] => .ok (level :: outer)
  | word :: rest =>
    match level.command? word with
    | some grammar =>
      readWords shared hasVersion (.start shared grammar) (level :: outer) rest
    | none =>
      if level.asksForHelp word then .error (helpAbout level.grammar rest)
      else do
        readWords shared hasVersion (← level.takeWord (hasVersion && outer.isEmpty) word) outer rest

/-- Completes levels that are listed from the inside. -/
def completeLevels (environment : String → Option String) (isInnermost : Bool) :
    List (Level α) → Except UsageError (List (Level α))
  | [] => .ok []
  | level :: outer => do
    let level ← level.complete environment isInnermost
    return level :: (← completeLevels environment false outer)

/-- The value of the innermost command of some levels. -/
def valueOf? (levels : List (Level α)) : Option α :=
  match levels with
  | { grammar := .command arguments, .. } :: _ => arguments.build (levels.flatMap (·.given))
  | _ => none

/-- Reads the words of a command line behind the name of the program. -/
def Usage.parse (usage : Usage γ α) (environment : String → Option String) (words : List String) :
    Except UsageError (γ × α) := do
  let shared := usage.shared.parts
  let levels ← readWords shared usage.hasVersion (.start shared usage.grammar) [] words
  let levels ← completeLevels environment true levels
  match usage.shared.build (levels.flatMap (·.given)), valueOf? levels with
  | some options, some value => return (options, value)
  | _, _ => throw .missingArgument

end CommandLine
end Valset
