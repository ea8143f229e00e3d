import CounterFormula.Run

/-!
# Run — Recording

What a run has recorded.  A run goes in small steps: it records a fault, shows what a run inside it
has shown, or finishes a pass with a source text.  `recorded` is a run that has recorded given
faults and shown given events; each step leads from one such run to another.

* `record_recorded`: one fault is listed and shown, and the run is as bad as the worst so far.
* `recordAll_recorded`, `pass_recorded`: so many faults are, and those of a pass.
* `ofInlined_eq`: what a run over a formula leaves behind.  Its faults stand in the order of the
  passes that have found them, and an observer sees, pass by pass, what the runs inside show, the
  faults of the pass and its source.
-/

namespace CounterFormula

/-- What an observer sees of pass `number`. -/
def Stage.events (stage : Stage) (number : Nat) : List Event :=
  stage.inner ++ stage.faults.map Event.fault ++ [.pass number stage.source]

namespace Run

/-- The run that has recorded `faults` and shown `events`, and all else as in `outcome`. -/
def recorded (mode : Mode) (outcome : Outcome) (faults : List Fault) (events : List Event) : Run :=
  { outcome :=
      { outcome with severity := Severity.worst (faults.map (Fault.severity mode)), faults := faults }
    events := events }

variable (mode : Mode) (outcome : Outcome) (faults : List Fault) (events : List Event)

/-! ### One step -/

theorem located_eq_recorded (block : Block) : located block = recorded mode (.ofBlock block) [] [] :=
  rfl

/-- **One fault** is listed and shown, and the run is as bad as the worst so far. -/
theorem record_recorded (fault : Fault) :
    (recorded mode outcome faults events).record mode fault =
      recorded mode outcome (faults ++ [fault]) (events ++ [.fault fault]) := by
  have hworst : Severity.worst ((faults ++ [fault]).map (Fault.severity mode)) =
      (Severity.worst (faults.map (Fault.severity mode))).max (fault.severity mode) := by
    rw [List.map_append]
    exact Severity.worst_concat _ _
  rw [recorded, recorded, hworst]
  rfl

theorem watch_recorded (shown : List Event) :
    (recorded mode outcome faults events).watch shown =
      recorded mode outcome faults (events ++ shown) :=
  rfl

theorem finishPass_recorded (number : Nat) (source : Text) :
    (recorded mode outcome faults events).finishPass number source =
      recorded mode (outcome.withSource source number) faults (events ++ [.pass number source]) := by
  match number with
  | 0 | 1 | 2 | 3 => rfl
  | _ + 4 => rfl

theorem define_recorded (table : List Assignment) (values : List (Text × Text)) :
    (recorded mode outcome faults events).define table values =
      recorded mode { outcome with table := table, values := values } faults events :=
  rfl

/-! ### Many steps -/

/-- **Many faults** are listed and shown in their order. -/
theorem recordAll_recorded (more : List Fault) :
    (recorded mode outcome faults events).recordAll mode more =
      recorded mode outcome (faults ++ more) (events ++ more.map Event.fault) := by
  induction more generalizing faults events with
  | nil => simp only [recordAll, List.foldl_nil, List.map_nil, List.append_nil]
  | cons fault rest ih =>
      calc (recorded mode outcome faults events).recordAll mode (fault :: rest)
          = ((recorded mode outcome faults events).record mode fault).recordAll mode rest := rfl
        _ = recorded mode outcome (faults ++ (fault :: rest))
              (events ++ (fault :: rest).map Event.fault) := by
            rw [record_recorded, ih]
            simp only [List.append_assoc, List.singleton_append, List.map_cons]

/-- **A pass** adds what it shows: the runs inside it, its faults and its source. -/
theorem pass_recorded (number : Nat) (stage : Stage) :
    (recorded mode outcome faults events).pass mode number stage =
      recorded mode (outcome.withSource stage.source number) (faults ++ stage.faults)
        (events ++ stage.events number) := by
  rw [Run.pass, watch_recorded, recordAll_recorded, finishPass_recorded, Stage.events]
  simp only [List.append_assoc]

theorem list_recorded (tokens : List Token) :
    let undefined := (SymbolTable.undefinedVariables tokens).map Fault.undefined
    (recorded mode outcome faults events).list mode tokens =
      recorded mode { outcome with symbols := SymbolTable.ofTokens tokens } (faults ++ undefined)
        (events ++ undefined.map Event.fault) :=
  recordAll_recorded mode { outcome with symbols := SymbolTable.ofTokens tokens } faults events _

/-! ### A run -/

/-- **What a run over a formula leaves behind.** -/
theorem ofInlined_eq (screenings : Option ScreeningRegistry) (config : Config) (raw : Text)
    (cleaned inlined : Stage) :
    ofInlined screenings config raw cleaned inlined =
      let (table, tableFaults) := Assignment.extract inlined.tokens
      let substituted := inlined.assign config table tableFaults
      let expanded := substituted.sum config screenings
      let undefined := (SymbolTable.undefinedVariables expanded.tokens).map Fault.undefined
      let faults :=
        cleaned.faults ++ inlined.faults ++ substituted.faults ++ expanded.faults ++ undefined
      { outcome :=
          { block := .formula raw
            severity := Severity.worst (faults.map (Fault.severity config.mode))
            faults := faults
            cleaned := cleaned.source
            inlined := inlined.source
            substituted := substituted.source
            expanded := expanded.source
            table := table
            values := Assignment.values inlined.source table
            symbols := SymbolTable.ofTokens expanded.tokens }
        events :=
          cleaned.events 0 ++ inlined.events 1 ++ substituted.events 2 ++ expanded.events 3 ++
            undefined.map Event.fault } := by
  simp only [ofInlined, located_eq_recorded config.mode, pass_recorded, define_recorded,
    list_recorded]
  rfl

variable {screenings : Option ScreeningRegistry} {config : Config} {raw : Text}
  {cleaned inlined : Stage}

/-! The sources and tables of the run, each from what stands before it. -/

theorem block_ofInlined :
    (ofInlined screenings config raw cleaned inlined).outcome.block = .formula raw := by
  rw [ofInlined_eq]

theorem cleaned_ofInlined :
    (ofInlined screenings config raw cleaned inlined).outcome.cleaned = cleaned.source := by
  rw [ofInlined_eq]

theorem inlined_ofInlined :
    (ofInlined screenings config raw cleaned inlined).outcome.inlined = inlined.source := by
  rw [ofInlined_eq]

theorem table_ofInlined :
    (ofInlined screenings config raw cleaned inlined).outcome.table =
      (Assignment.extract inlined.tokens).1 := by
  rw [ofInlined_eq]

theorem values_ofInlined :
    let outcome := (ofInlined screenings config raw cleaned inlined).outcome
    outcome.values = Assignment.values outcome.inlined outcome.table := by
  rw [ofInlined_eq]

theorem substituted_ofInlined :
    let outcome := (ofInlined screenings config raw cleaned inlined).outcome
    outcome.substituted = Assignment.substitute outcome.inlined outcome.table := by
  rw [ofInlined_eq]
  rfl

theorem expanded_ofInlined :
    let outcome := (ofInlined screenings config raw cleaned inlined).outcome
    outcome.expanded =
      (Summation.expandAll config screenings outcome.substituted
        (lex config.mode outcome.substituted).body).1 := by
  rw [ofInlined_eq]
  rfl

theorem symbols_ofInlined :
    let outcome := (ofInlined screenings config raw cleaned inlined).outcome
    outcome.symbols = .ofTokens (lex config.mode outcome.expanded).body := by
  rw [ofInlined_eq]
  rfl

end Run

end CounterFormula
