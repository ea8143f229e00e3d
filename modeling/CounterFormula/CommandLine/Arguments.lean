import CounterFormula.Settings

/-!
# Command line — Arguments

The arguments of the command: options for all subcommands, which may stand before or after the
subcommand's name, and the subcommand's own options and its one positional argument.  An
option may be given once before and once after the name; the later one counts.  A flag with a
letter may be given by it, several letters in a row, and the flag that asks for the version,
which stands before the name, ends the reading.
-/

namespace CounterFormula.CommandLine

/-- How results are written. -/
inductive Format where
  | text
  | json
  deriving DecidableEq, Repr

/-- What is to be done. -/
inductive Command where
  | parse (document : Text) (flags : Flags)
  | lex (file : Text) (relaxed clean : Bool)
  | kpi (id : Text) (wanted : Option Text) (flags : Flags)
  deriving DecidableEq, Repr

structure Invocation where
  format : Format
  quiet : Bool
  /-- The path of the settings file. -/
  settings : Option Text
  command : Command
  deriving DecidableEq, Repr

/-! ### Options -/

/-- What follows the name of an option. -/
inductive Argument where
  | nothing
  | anyText
  /-- A path is not empty. -/
  | path
  | format
  deriving DecidableEq, Repr

/-- The flag that asks for the version and ends the reading of arguments. -/
def versionFlag : String := "version"

/-- The flags that a letter stands for. -/
def letters : List (Char × String) := [('v', "verbose"), ('V', versionFlag)]

/-- The options of all subcommands. -/
def globalOptions : List (String × Argument) :=
  [("output", .format), ("quiet", .nothing), ("verbose", .nothing), ("config", .path)]

/-- The options of the subcommands that run a formula. -/
def runOptions : List (String × Argument) :=
  [("start-phrase", .anyText), ("relaxed", .nothing), ("kpis", .path), ("screenings", .path),
    ("release", .anyText), ("screening-version", .anyText), ("encoding", .anyText)]

/-- The subcommands with their own options. -/
def subcommands : List (String × List (String × Argument)) :=
  [("parse", runOptions),
    ("lex", [("relaxed", .nothing), ("clean", .nothing)]),
    ("kpi", ("variable", .anyText) :: runOptions)]

/-- What has been given so far. -/
structure Given where
  options : List (String × Text)
  words : List Text
  deriving DecidableEq, Repr

namespace Given

def empty : Given := ⟨[], []⟩

def has (given : Given) (name : String) : Bool :=
  (given.options.lookup name).isSome

/-- `given` with one more option, unless it has it already. -/
def add? (given : Given) (name : String) (value : Text) : Option Given :=
  if given.has name then none else some { given with options := (name, value) :: given.options }

/-- `given` with the flags of `options` that a row of letters stands for. -/
def addLetters? (options : List (String × Argument)) (given : Given) : Text → Option Given
  | [] => some given
  | letter :: rest => do
    let name ← letters.lookup letter
    if options.lookup name ≠ some .nothing then none
    let given ← given.add? name []
    if name = versionFlag then return given else given.addLetters? options rest

end Given

/-- Whether a text is right for an argument. -/
def accepts (argument : Argument) (text : Text) : Bool :=
  match argument with
  | .nothing => false
  | .anyText => true
  | .path => !text.isEmpty
  | .format => text == "text".toList || text == "json".toList

/-- Whether a text looks like an option and so is no argument of one. -/
def looksLikeOption : Text → Bool
  | '-' :: _ :: _ => true
  | _ => false

/-- The name of an option and the value that an equals sign gives it. -/
def splitOption (option : Text) : String × Option Text :=
  match Text.cut? ['='] option with
  | some (name, value) => (String.ofList name, some value)
  | none => (String.ofList option, none)

/-- The arguments read by `options`; with `toWord` only up to the first word, which is left
with what follows it. -/
def readArguments (options : List (String × Argument)) (toWord : Bool) (given : Given) :
    List Text → Option (Given × List Text)
  | [] => some (given, [])
  | ['-', '-'] :: rest =>
    -- Before the subcommand's name nothing may be set apart from the options.
    if toWord then none else some ({ given with words := given.words ++ rest }, [])
  | ('-' :: '-' :: option) :: rest =>
    let (name, value) := splitOption option
    match options.lookup name, value, rest with
    | none, _, _ => none
    | some .nothing, none, rest => do
      let given ← given.add? name []
      if name = versionFlag then return (given, [])
      readArguments options toWord given rest
    | some argument, some value, rest => do
      if accepts argument value then
        readArguments options toWord (← given.add? name value) rest
      else none
    | some argument, none, value :: rest => do
      if accepts argument value && !looksLikeOption value then
        readArguments options toWord (← given.add? name value) rest
      else none
    | some _, none, [] => none
  | ('-' :: letter :: more) :: rest => do
    let given ← given.addLetters? options (letter :: more)
    if given.has versionFlag then return (given, [])
    readArguments options toWord given rest
  | word :: rest =>
    if toWord then some (given, word :: rest)
    else readArguments options toWord { given with words := given.words ++ [word] } rest

/-! ### Invocations -/

/-- The flags among the options given. -/
def Given.flags (given : Given) : Flags where
  startPhrase := given.options.lookup "start-phrase"
  relaxed := given.has "relaxed"
  encoding := given.options.lookup "encoding"
  release := given.options.lookup "release"
  version := given.options.lookup "screening-version"
  kpis := given.options.lookup "kpis"
  screenings := given.options.lookup "screenings"

/-- The command that a subcommand's arguments make. -/
def commandOf? (name : String) (given : Given) : Option Command :=
  match name, given.words with
  | "parse", [document] => if document.isEmpty then none else some (.parse document given.flags)
  | "lex", [file] =>
    if file.isEmpty then none else some (.lex file (given.has "relaxed") (given.has "clean"))
  | "kpi", [id] => some (.kpi id (given.options.lookup "variable") given.flags)
  | _, _ => none

/-- The format among the options given. -/
def formatOf (name : Option Text) : Format :=
  if name = some "json".toList then .json else .text

/-- What the arguments ask for. -/
inductive Request where
  | version
  | invocation (invocation : Invocation)
  deriving DecidableEq, Repr

/-- The options that may stand before a subcommand's name. -/
def leadingOptions : List (String × Argument) := (versionFlag, .nothing) :: globalOptions

/-- The request that the arguments make; none when they do not make sense. -/
def request? (arguments : List Text) : Option Request := do
  let (before, rest) ← readArguments leadingOptions true .empty arguments
  if before.has versionFlag then return .version
  match rest with
  | [] => none
  | name :: rest =>
    let name := String.ofList name
    let own ← subcommands.lookup name
    let (after, _) ← readArguments (own ++ globalOptions) false .empty rest
    let command ← commandOf? name after
    let value (option : String) : Option Text :=
      after.options.lookup option <|> before.options.lookup option
    return .invocation {
      format := formatOf (value "output")
      quiet := after.has "quiet" || before.has "quiet"
      settings := value "config"
      command := command }

end CounterFormula.CommandLine
