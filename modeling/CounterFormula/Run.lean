import CounterFormula.Outcome
import CounterFormula.Registry

/-!
# Run

A run takes a document through the passes: 0 finds and cleans the formula, 1 replaces
references, 2 variables, 3 summations, and the symbols of what is left are listed.  Each pass
changes the source text and cuts the result into tokens anew.

`Run.ofDocument` is one run, with references answered by a resolver it is given.  `resolve`
answers a reference by a run over the KPI's own document, whose references it resolves in
turn; `chain` holds the KPIs under way, so that a reference back into it is a fault and the
nesting ends (`Registries.pending_lt_of_lookupKpi`).  A run records what it meets step by step
(`Run.record`, `Run.pass`), and leaves a trace of it in order, the traces of the runs inside it
included.
-/

namespace CounterFormula

/-- What an observer of a run sees. -/
inductive Event where
  | fault (fault : Fault)
  /-- The source text after a pass. -/
  | pass (number : Nat) (source : Text)
  deriving DecidableEq, Repr

/-- What the references of one run have led to so far. -/
structure Log where
  faults : List ReferenceFault
  /-- The events of the runs made for them. -/
  events : List Event
  deriving DecidableEq, Repr

namespace Log

def empty : Log := ⟨[], []⟩

def report (fault : ReferenceFault) (log : Log) : Log :=
  { log with faults := log.faults ++ [fault] }

def watch (events : List Event) (log : Log) : Log :=
  { log with events := log.events ++ events }

end Log

/-! ### Passes -/

/-- The source text as one pass leaves it. -/
structure Stage where
  source : Text
  tokens : List Token
  /-- The pass's own faults. -/
  faults : List Fault
  /-- The events of the runs made during the pass. -/
  inner : List Event
  deriving DecidableEq, Repr

namespace Stage

/-- The stage that pass `number` reaches with `source`, with the faults met on the way. -/
def reach (mode : Mode) (number : Nat) (source : Text) (faults : List Fault) : Stage :=
  let lexed := lex mode source
  ⟨source, lexed.body, faults ++ lexed.faults.map (Fault.lexical number), []⟩

/-- Pass 0 on the text of a block. -/
def clean (config : Config) (raw : Text) : Stage :=
  let source := CounterFormula.clean config.encoding raw
  reach config.mode 0 source (if Clean.hasStrayHash source then [.strayHash] else [])

/-- The stage that pass 1 reaches with `source`, when the references have led to `log`. -/
def reachInlined (config : Config) (source : Text) (log : Log) : Stage :=
  { reach config.mode 1 source (log.faults.map Fault.reference) with inner := log.events }

/-- A stage that a pass leaves as it is. -/
def unchanged (stage : Stage) : Stage :=
  { stage with faults := [], inner := [] }

/-- Pass 1.  A source without a reference is left as it is. -/
def inline (config : Config) (resolver : Reference.Resolver Log) (stage : Stage) : Stage :=
  if Reference.mentionedIn stage.source then
    let (source, log) := Reference.substitute resolver stage.source stage.tokens .empty
    reachInlined config source log
  else stage.unchanged

/-- Pass 2, with the assignments of the source given. -/
def assign (config : Config) (table : List Assignment) (faults : List AssignmentFault)
    (stage : Stage) : Stage :=
  reach config.mode 2 (Assignment.substitute stage.source table)
    ((faults ++ Assignment.valueFaults stage.source table).map Fault.assignment)

/-- Pass 3. -/
def sum (config : Config) (screenings : Option ScreeningRegistry) (stage : Stage) : Stage :=
  let (source, faults) := Summation.expandAll config screenings stage.source stage.tokens
  reach config.mode 3 source (faults.map Fault.summation)

end Stage

/-! ### One run -/

/-- A run over a document, as far as it has come. -/
structure Run where
  outcome : Outcome
  /-- What an observer saw, in order. -/
  events : List Event
  deriving DecidableEq, Repr

namespace Run

/-- A run that has only looked for its formula. -/
def located (block : Block) : Run :=
  ⟨.ofBlock block, []⟩

/-- One fault is met: the observer sees it, the run lists it and is at least as bad. -/
def record (mode : Mode) (run : Run) (fault : Fault) : Run :=
  { outcome :=
      { run.outcome with
        severity := run.outcome.severity.max (fault.severity mode)
        faults := run.outcome.faults ++ [fault] }
    events := run.events ++ [.fault fault] }

/-- Faults are met, one after the other. -/
def recordAll (mode : Mode) (run : Run) (faults : List Fault) : Run :=
  faults.foldl (record mode) run

/-- The observer sees what other runs show it. -/
def watch (run : Run) (events : List Event) : Run :=
  { run with events := run.events ++ events }

/-- A pass ends with `source`. -/
def finishPass (run : Run) (number : Nat) (source : Text) : Run :=
  { outcome := run.outcome.withSource source number
    events := run.events ++ [.pass number source] }

/-- A pass is made, with the stage that it reaches. -/
def pass (mode : Mode) (run : Run) (number : Nat) (stage : Stage) : Run :=
  ((run.watch stage.inner).recordAll mode stage.faults).finishPass number stage.source

/-- The assignments are known, and the values of the variables. -/
def define (run : Run) (table : List Assignment) (values : List (Text × Text)) : Run :=
  { run with outcome := { run.outcome with table := table, values := values } }

/-- The symbols of what is left are listed, and the variables among them are faults. -/
def list (mode : Mode) (run : Run) (tokens : List Token) : Run :=
  { run with outcome := { run.outcome with symbols := SymbolTable.ofTokens tokens } }.recordAll mode
    ((SymbolTable.undefinedVariables tokens).map Fault.undefined)

/-- The run over the text of a formula block, when pass 1 has led from `cleaned` to `inlined`. -/
def ofInlined (screenings : Option ScreeningRegistry) (config : Config) (raw : Text)
    (cleaned inlined : Stage) : Run :=
  let run := (located (.formula raw)).pass config.mode 0 cleaned
  let run := run.pass config.mode 1 inlined
  -- The table is read before its values are put in and outlives them.
  let (table, faults) := Assignment.extract inlined.tokens
  let run := run.define table (Assignment.values inlined.source table)
  let substituted := inlined.assign config table faults
  let run := run.pass config.mode 2 substituted
  let expanded := substituted.sum config screenings
  let run := run.pass config.mode 3 expanded
  run.list config.mode expanded.tokens

/-- The run over the text of a formula block. -/
def ofFormula (resolver : Reference.Resolver Log) (screenings : Option ScreeningRegistry)
    (config : Config) (raw : Text) : Run :=
  let cleaned := Stage.clean config raw
  ofInlined screenings config raw cleaned (cleaned.inline config resolver)

/-- The run over a document. -/
def ofDocument (resolver : Reference.Resolver Log) (screenings : Option ScreeningRegistry)
    (config : Config) (document : Text) : Run :=
  match Block.locate config.startPhrase (Block.mendPhrase document) with
  | .noPhrase => located .noPhrase
  | .flawed flaw => (located (.flawed flaw)).record config.mode (.structural flaw)
  | .formula raw => ofFormula resolver screenings config raw

/-- What a run made for `reference` gives: the expanded formula or one variable's value. -/
def textFor (run : Run) (reference : Reference) : Text :=
  match reference.wanted with
  | none => run.outcome.expanded
  | some name => run.outcome.variableSource name

/-- The answer that a run made for `reference` gives, noted in `log`. -/
def answer (run : Run) (reference : Reference) (log : Log) : Text × Log :=
  let log := log.watch run.events
  if run.outcome.raw.isEmpty then
    (reference.placeholder, log.report (.unusable reference.kpi run.outcome.block))
  else if run.outcome.faults.isEmpty then
    (run.textFor reference, log)
  else
    (run.textFor reference, log.report (.faulty reference.kpi))

end Run

/-! ### References -/

/-- The answer to `reference` while the KPIs on `chain` are being resolved. -/
def resolve (registries : Registries) (config : Config) (chain : List Text)
    (reference : Reference) (log : Log) : Text × Log :=
  if _hchain : reference.kpi ∈ chain then
    (reference.placeholder, log.report (.cyclic chain reference.kpi))
  else
    match _hdoc : registries.lookupKpi reference.kpi with
    | none => (reference.placeholder, log.report (.unknownKpi reference.kpi))
    | some document =>
      let resolver : Reference.Resolver Log :=
        { resolve := fun inner log =>
            resolve registries config.nested (chain ++ [reference.kpi]) inner log
          report := Log.report }
      (Run.ofDocument resolver registries.screenings config.nested document).answer reference log
termination_by registries.pending chain
decreasing_by exact Registries.pending_lt_of_lookupKpi _hdoc _hchain

/-- The resolver of a run that is made while the KPIs on `chain` are being resolved. -/
def resolver (registries : Registries) (config : Config) (chain : List Text) :
    Reference.Resolver Log :=
  { resolve := resolve registries config chain, report := Log.report }

section

variable {registries : Registries} {chain : List Text} {reference : Reference}

theorem resolve_of_mem (config : Config) (log : Log) (h : reference.kpi ∈ chain) :
    resolve registries config chain reference log =
      (reference.placeholder, log.report (.cyclic chain reference.kpi)) := by
  rw [resolve, dif_pos h]

theorem resolve_of_lookupKpi_eq_none (config : Config) (log : Log) (h : reference.kpi ∉ chain)
    (hlookup : registries.lookupKpi reference.kpi = none) :
    resolve registries config chain reference log =
      (reference.placeholder, log.report (.unknownKpi reference.kpi)) := by
  rw [resolve, dif_neg h]
  split
  · rfl
  · rename_i hdocument
    rw [hlookup] at hdocument
    cases hdocument

theorem resolve_of_lookupKpi {document : Text} (config : Config) (log : Log)
    (h : reference.kpi ∉ chain) (hlookup : registries.lookupKpi reference.kpi = some document) :
    resolve registries config chain reference log =
      (Run.ofDocument (resolver registries config.nested (chain ++ [reference.kpi]))
        registries.screenings config.nested document).answer reference log := by
  rw [resolve, dif_neg h]
  split
  · rename_i hdocument
    rw [hlookup] at hdocument
    cases hdocument
  · rename_i hdocument
    obtain rfl := Option.some.inj (hlookup.symm.trans hdocument)
    rfl

end

/-- The run over `document`. -/
def run (registries : Registries) (config : Config) (document : Text) : Run :=
  Run.ofDocument (resolver registries config []) registries.screenings config document

/-- A reference expanded on its own. -/
structure Expansion where
  text : Text
  faults : List ReferenceFault
  /-- What an observer saw: the runs made, then the faults. -/
  events : List Event
  deriving DecidableEq, Repr

/-- What `reference` stands for, outside of any formula. -/
def expandReference (registries : Registries) (config : Config) (reference : Reference) :
    Expansion :=
  let (text, log) := resolve registries config [] reference .empty
  ⟨text, log.faults,
    log.events ++ log.faults.map fun fault => .fault (.reference fault)⟩

end CounterFormula
