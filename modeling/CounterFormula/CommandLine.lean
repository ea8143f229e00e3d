import CounterFormula.CommandLine.Arguments
import CounterFormula.Fault.File
import CounterFormula.Json.Canonical
import CounterFormula.Registry.File
import CounterFormula.Run
import CounterFormula.Settings.Toml

/-!
# Command line

What the command prints and how it exits.  Files are read through a function, which may act in
any monad, so the command itself is a pure function of its arguments and of the files.
-/

namespace CounterFormula.CommandLine

/-! ### Responses -/

/-- Why a command cannot be carried out. -/
inductive Refusal where
  | usage
  | settingsUnreadable (path : Text) (reason : String)
  | settingsMalformed (path : Text)
  | registryUnreadable (path : Text) (reason : String)
  | registryMalformed (path : Text)
  | inputUnreadable (path : Text) (reason : String)
  | encoding (fault : UnknownEncoding)
  | noKpis
  deriving DecidableEq, Repr

namespace Refusal

def message : Refusal → String
  | usage => "usage error"
  | settingsUnreadable path reason => s!"could not read '{String.ofList path}': {reason}"
  | settingsMalformed path => s!"could not parse '{String.ofList path}'"
  | registryUnreadable path reason => s!"cannot read '{String.ofList path}': {reason}"
  | registryMalformed path => s!"invalid registry JSON in '{String.ofList path}'"
  | inputUnreadable path reason => s!"error reading file '{String.ofList path}': {reason}"
  | encoding fault => fault.message
  | noKpis => "no KPI registry given (use --kpis or the 'kpis' config key)"

/-- The exit code. -/
def code : Refusal → Nat
  | usage => 2
  | _ => 1

end Refusal

/-- What a command prints, and its exit code. -/
structure Response where
  code : Nat
  output : String
  deriving DecidableEq, Repr

/-- The end of a command: a response, or a refusal and the format it is told in; a quiet
command does not tell it. -/
inductive Result where
  | done (response : Response)
  | refused (refusal : Refusal) (format : Option Format)
  deriving DecidableEq, Repr

/-- A refusal as it is told. -/
def Refusal.tell (refusal : Refusal) : Format → String
  | .text => refusal.message ++ "\n"
  | .json =>
    String.ofList (Json.ofFields [("error", .ofString refusal.message)]).compact ++ "\n"

/-- How files are read: a text, or the reason why there is none. -/
abbrev Files (m : Type → Type) := (path : Text) → m (Except String Text)

/-! ### Writing -/

/-- The command's name and version. -/
def programVersion : String := "formex 0.1.0"

def line (text : Text) : String :=
  String.ofList text ++ "\n"

def pretty (value : Json) : String :=
  line value.render

def lines (texts : List String) : String :=
  String.join (texts.map (· ++ "\n"))

/-- The variables of an outcome with their values. -/
def variablesJson (outcome : Outcome) : Json :=
  .array (outcome.values.map fun (name, value) =>
    .ofFields
      [("name", .ofText name), ("value", .ofText value),
        ("resolved", .ofText (outcome.variableSource name))])

/-- An outcome as a record. -/
def outcomeJson (outcome : Outcome) : Json :=
  .ofFields
    [("status", .ofString outcome.block.status),
      ("severity", .ofString outcome.severity.word),
      ("found", .bool outcome.found),
      ("errors", .array (outcome.faults.map fun fault => fault.record.toJson)),
      ("raw", .ofText outcome.raw),
      ("cleaned", .ofText outcome.cleaned),
      ("expanded", .ofText outcome.expanded),
      ("passes", .array (outcome.passes.map Json.ofText)),
      ("variables", variablesJson outcome),
      ("symbols", .array (outcome.symbols.names.map Json.ofText))]

/-- A list under a heading; nothing when it is empty. -/
def titled (heading : String) (items : List String) : String :=
  if items.isEmpty then "" else lines (heading :: items.map ("  " ++ ·))

/-- An outcome for a reader. -/
def outcomeText (outcome : Outcome) : String :=
  outcome.report ++
    (if outcome.raw.isEmpty then ""
      else Outcome.passage "Expanded Formula" outcome.expanded) ++
    titled "Symbols:" (outcome.symbols.names.map String.ofList) ++
    titled "Errors:"
      (outcome.faults.map fun fault => s!"[pass {fault.pass}] {fault.message}")

/-- A token as a record. -/
def tokenJson (token : Token) : Json :=
  .ofFields
    [("class", .ofString token.kind.word), ("end", .ofNat token.last),
      ("start", .ofNat token.first), ("text", .ofText token.text)]

/-- Faults under a plain listing, which a quiet command leaves out. -/
def faultLines (quiet : Bool) (messages : List String) : String :=
  if quiet then "" else lines (messages.map ("ERROR: " ++ ·))

/-! ### Commands -/

/-- The response to `parse`. -/
def parseResponse (format : Format) (quiet : Bool) (outcome : Outcome) : Response where
  code := if outcome.severity = .error then 2 else 0
  output :=
    match format with
    | .json => pretty (outcomeJson outcome)
    | .text => if quiet then line outcome.expanded else outcomeText outcome

/-- The response to `lex`. -/
def lexResponse (format : Format) (quiet : Bool) (mode : Mode) (encoding : Encoding)
    (cleanFirst : Bool) (text : Text) : Response :=
  let text := Text.trim text
  let source := if cleanFirst then clean encoding text else text
  let strayHash := cleanFirst && Clean.hasStrayHash source
  let lexed := lex mode source
  let messages :=
    (if strayHash then [Fault.strayHash.message] else []) ++
      lexed.faults.map LexicalFault.message
  { code := if mode = .strict ∧ messages ≠ [] then 2 else 0
    output :=
      match format with
      | .json =>
        pretty (.ofFields
          [("errors", .array (messages.map Json.ofString)),
            ("source", .ofText source),
            ("tokens", .array (lexed.body.map tokenJson))])
      | .text => lexed.listing ++ faultLines quiet messages }

/-- The response to `kpi`. -/
def kpiResponse (format : Format) (quiet : Bool) (mode : Mode) (reference : Reference)
    (expansion : Expansion) : Response :=
  let faults := expansion.faults.map Fault.reference
  { code :=
      if Severity.worst (faults.map (Fault.severity mode)) = .error then 2 else 0
    output :=
      match format with
      | .json =>
        pretty (Json.inKeyOrder (.ofFields
          [("kpi_id", .ofText reference.kpi),
            ("variable", .ofOption .ofText reference.wanted),
            ("expanded", .ofText expansion.text),
            ("errors", .array (faults.map fun fault => fault.record.toJson))]))
      | .text => line expansion.text ++ faultLines quiet (faults.map Fault.message) }

/-! ### Running -/

section

variable {m : Type → Type} [Monad m] (files : Files m)

/-- A step that may end the command. -/
abbrev Step (m : Type → Type) := ExceptT Refusal m

/-- A file's text. -/
def readFile (path : Text) (refusal : String → Refusal) : Step m Text := do
  match ← files path with
  | .ok text => return text
  | .error reason => throw (refusal reason)

def readSettings : Option Text → Step m Settings
  | none => return .empty
  | some path => do
    let text ← readFile files path (.settingsUnreadable path)
    match Settings.Toml.read? text with
    | some settings => return settings
    | none => throw (.settingsMalformed path)

/-- The registry in the file at a path, if there is a path. -/
def readRegistry {α : Type} (ofFile : Text → Json.Decoded α) : Option Text → Step m (Option α)
  | none => return none
  | some path => do
    let text ← readFile files path (.registryUnreadable path)
    match ofFile text with
    | .ok registry => return some registry
    | .error _ => throw (.registryMalformed path)

/-- The encoding fault of a step as a refusal. -/
def orRefuse {α : Type} : Except UnknownEncoding α → Step m α
  | .ok value => return value
  | .error fault => throw (.encoding fault)

/-- The configuration and the registries that flags and settings call for. -/
def prepare (flags : Flags) (settings : Settings) : Step m (Config × Registries) := do
  let config ← orRefuse (flags.config settings)
  let kpis ← readRegistry files KpiRegistry.ofFile (flags.kpisPath settings)
  let screenings ← readRegistry files ScreeningRegistry.ofFile (flags.screeningsPath settings)
  return (config, ⟨kpis, screenings⟩)

/-- The encoding that the settings name. -/
def encodingOf (settings : Settings) : Step m Encoding :=
  match settings.encoding with
  | some name => orRefuse (Encoding.ofName name)
  | none => return Config.default.encoding

/-- The response to a command. -/
def respond (format : Format) (quiet : Bool) (settings : Settings) : Command → Step m Response
  | .parse document flags => do
    let (config, registries) ← prepare files flags settings
    let text ← readFile files document (.inputUnreadable document)
    return parseResponse format quiet (run registries config text).outcome
  | .lex file relaxed cleanFirst => do
    let encoding ← encodingOf settings
    let text ← readFile files file (.inputUnreadable file)
    let mode := if relaxed then .relaxed else settings.mode
    return lexResponse format quiet mode encoding cleanFirst text
  | .kpi id wanted flags => do
    let (config, registries) ← prepare files flags settings
    if registries.kpis.isNone then throw .noKpis
    let reference : Reference := ⟨id, wanted⟩
    return kpiResponse format quiet config.mode reference
      (expandReference registries config reference)

/-- The command run with `arguments`. -/
def runWith (arguments : List Text) : m Result := do
  match request? arguments with
  | none => return .refused .usage (some .text)
  | some .version => return .done ⟨0, programVersion ++ "\n"⟩
  | some (.invocation invocation) =>
    let steps : Step m Response := do
      let settings ← readSettings files invocation.settings
      respond files invocation.format invocation.quiet settings invocation.command
    match ← steps.run with
    | .ok response => return .done response
    | .error refusal =>
      return .refused refusal (if invocation.quiet then none else some invocation.format)

end

end CounterFormula.CommandLine
