import CounterFormula.Proofs.Checked.Assignment
import CounterFormula.Proofs.Checked.Summation
import CounterFormula.Proofs.Run.References

/-!
# Checked — Run

A run with its failures in the open.  Each pass hands on the tokens of its text with the mark behind
them, and stores the text in its place among those of the four passes; references are resolved by
checked runs over the documents that they name.

* `ofFormula?_eq`: a run over a formula never fails, when the references in it are resolved.
* `resolve?_eq`: they always are, along every chain.
* `run?_eq_some_run`: no run ever fails, and each is the run that is made.
-/

namespace CounterFormula.Checked

open Reference (Resolver)

/-! ### Passes -/

/-- A stage with the mark behind its tokens. -/
def marked (stage : Stage) : Stage :=
  { stage with tokens := stage.tokens ++ [.stop stage.source.length] }

/-- The stage that pass `number` reaches with `source`, its tokens with the mark. -/
def reach? (mode : Mode) (number : Nat) (source : Text) (faults : List Fault) : Option Stage := do
  let (stream, found) ← lex? mode source
  -- a listing of the run counts the tokens before the mark
  let _ ← body? stream
  some ⟨source, stream, faults ++ found.map (Fault.lexical number), []⟩

theorem reach?_eq (mode : Mode) (number : Nat) (source : Text) (faults : List Fault) :
    reach? mode number source faults = some (marked (Stage.reach mode number source faults)) := by
  rw [reach?, lex?_eq]
  simp only [Option.bind_eq_bind, Option.bind_some]
  rw [Lexed.tokens, body?_concat]
  rfl

/-- Pass 1. -/
def inline? (config : Config) (answer? : Reference → Log → Option (Text × Log)) (stage : Stage) :
    Option Stage :=
  if Reference.mentionedIn stage.source then do
    let (source, log) ← substitute? answer? Log.report stage.source stage.tokens .empty
    let reached ← reach? config.mode 1 source (log.faults.map Fault.reference)
    some { reached with inner := log.events }
  else some stage.unchanged

/-- `answer?` never fails, and answers as `resolver` does. -/
structure Resolves (answer? : Reference → Log → Option (Text × Log)) (resolver : Resolver Log) :
    Prop where
  resolve_eq : ∀ reference log, answer? reference log = some (resolver.resolve reference log)
  report_eq : resolver.report = Log.report

variable {answer? : Reference → Log → Option (Text × Log)} {resolver : Resolver Log}

theorem inline?_eq (h : Resolves answer? resolver) (config : Config) (stage : Stage) :
    inline? config answer? (marked stage) = some (marked (stage.inline config resolver)) := by
  have hsubstitute := substitute?_eq h.resolve_eq stage.source stage.tokens stage.source.length
    Log.empty
  rw [h.report_eq] at hsubstitute
  rw [inline?, Stage.inline]
  by_cases hmention : Reference.mentionedIn stage.source = true
  · rw [if_pos hmention]
    refine (if_pos hmention).trans ?_
    rw [marked, hsubstitute]
    simp only [Option.bind_eq_bind, Option.bind_some, reach?_eq]
    rfl
  · rw [if_neg hmention]
    exact if_neg hmention

/-- Pass 2: the definitions and the values, and the stage that is reached with them. -/
def substituteValues? (config : Config) (stage : Stage) :
    Option (List Definition × List (Text × Text) × Stage) := do
  let (table, faults) ← extract? stage.tokens
  let (source, values, valueFaults) ← assign? stage.source table
  let reached ← reach? config.mode 2 source ((faults ++ valueFaults).map Fault.assignment)
  some (table, values, reached)

theorem substituteValues?_eq (config : Config) (stage : Stage) :
    ∃ definitions,
      substituteValues? config (marked stage) =
        some (definitions, Assignment.values stage.source (Assignment.extract stage.tokens).1,
          marked (stage.assign config (Assignment.extract stage.tokens).1
            (Assignment.extract stage.tokens).2)) ∧
      definitions.mapM Definition.read? = some (Assignment.extract stage.tokens).1 := by
  obtain ⟨definitions, hextract, hrecords⟩ :=
    extract?_eq stage.tokens (.stop stage.source.length)
  refine ⟨definitions, ?_, mapM_read? hrecords⟩
  have hassign := assign?_eq stage.source hrecords
  rw [substituteValues?, marked, hextract]
  simp only [Option.bind_eq_bind, Option.bind_some, hassign, reach?_eq]
  rfl

/-- Pass 3. -/
def sum? (config : Config) (screenings : Option ScreeningRegistry) (stage : Stage) :
    Option Stage := do
  let (source, faults) ← expandAll? config screenings stage.source stage.tokens
  reach? config.mode 3 source (faults.map Fault.summation)

theorem sum?_eq (config : Config) (screenings : Option ScreeningRegistry) {stage : Stage}
    (hmade : ∀ token ∈ stage.tokens, Lexer.Made token) :
    sum? config screenings (marked stage) = some (marked (stage.sum config screenings)) := by
  rw [sum?, marked, expandAll?_eq config screenings stage.source hmade]
  simp only [Option.bind_eq_bind, Option.bind_some, reach?_eq]
  rfl

/-! ### One run -/

/-- A pass ends with `source`, which takes its place among the texts of the four passes; it fails
when there is no such place. -/
def finishPass? (run : Run) (number : Nat) (source : Text) : Option Run :=
  if number < run.outcome.passes.length then
    match run.outcome.passes.set number source with
    | [cleaned, inlined, substituted, expanded] =>
      some
        { outcome :=
            { run.outcome with
              cleaned := cleaned
              inlined := inlined
              substituted := substituted
              expanded := expanded }
          events := run.events ++ [.pass number source] }
    | _ => none
  else none

theorem finishPass?_eq (run : Run) {number : Nat} (h : number < 4) (source : Text) :
    finishPass? run number source = some (run.finishPass number source) := by
  match number with
  | 0 | 1 | 2 | 3 => rfl
  | n + 4 => exact absurd h (Nat.not_lt_of_le (Nat.le_add_left 4 n))

/-- A pass is made, with the stage that it reaches. -/
def pass? (mode : Mode) (run : Run) (number : Nat) (stage : Stage) : Option Run :=
  finishPass? ((run.watch stage.inner).recordAll mode stage.faults) number stage.source

theorem pass?_eq (mode : Mode) (run : Run) {number : Nat} (h : number < 4) (stage : Stage) :
    pass? mode run number (marked stage) = some (run.pass mode number stage) :=
  finishPass?_eq _ h stage.source

/-- The run over the text of a formula block. -/
def ofFormula? (answer? : Reference → Log → Option (Text × Log))
    (screenings : Option ScreeningRegistry) (config : Config) (raw : Text) : Option Run := do
  let source := clean config.encoding raw
  let cleaned ← reach? config.mode 0 source (if Clean.hasStrayHash source then [.strayHash] else [])
  let run ← pass? config.mode (Run.located (.formula raw)) 0 cleaned
  let inlined ← inline? config answer? cleaned
  let run ← pass? config.mode run 1 inlined
  let (definitions, values, substituted) ← substituteValues? config inlined
  let table ← definitions.mapM Definition.read?
  let run ← pass? config.mode (run.define table values) 2 substituted
  let expanded ← sum? config screenings substituted
  let run ← pass? config.mode run 3 expanded
  let body ← body? expanded.tokens
  some (run.list config.mode body)

/-- **A run over a formula** never fails, when the references in it are resolved. -/
theorem ofFormula?_eq (h : Resolves answer? resolver) (screenings : Option ScreeningRegistry)
    (config : Config) (raw : Text) :
    ofFormula? answer? screenings config raw =
      some (Run.ofFormula resolver screenings config raw) := by
  have hcleaned : reach? config.mode 0 (clean config.encoding raw)
      (if Clean.hasStrayHash (clean config.encoding raw) then [.strayHash] else []) =
        some (marked (Stage.clean config raw)) := reach?_eq _ _ _ _
  have hinline := inline?_eq h config (Stage.clean config raw)
  rw [ofFormula?, Run.ofFormula]
  generalize Stage.clean config raw = cleaned at hcleaned hinline
  generalize cleaned.inline config resolver = inlined at hinline
  obtain ⟨definitions, hvalues, htable⟩ := substituteValues?_eq config inlined
  have hmade : ∀ token ∈ (inlined.assign config (Assignment.extract inlined.tokens).1
      (Assignment.extract inlined.tokens).2).tokens, Lexer.Made token := made_of_mem_body
  have hsum := sum?_eq config screenings hmade
  rw [Run.ofInlined]
  generalize Assignment.extract inlined.tokens = extracted at hvalues htable hsum
  obtain ⟨table, tableFaults⟩ := extracted
  dsimp only at hvalues htable hsum ⊢
  generalize inlined.assign config table tableFaults = substituted at hvalues hsum
  generalize substituted.sum config screenings = expanded at hsum
  have hbody : body? (marked expanded).tokens = some expanded.tokens := body?_concat _ _
  have hpass (run : Run) (stage : Stage) :
      pass? config.mode run 0 (marked stage) = some (run.pass config.mode 0 stage) ∧
        pass? config.mode run 1 (marked stage) = some (run.pass config.mode 1 stage) ∧
        pass? config.mode run 2 (marked stage) = some (run.pass config.mode 2 stage) ∧
        pass? config.mode run 3 (marked stage) = some (run.pass config.mode 3 stage) :=
    ⟨pass?_eq _ run (by decide) stage, pass?_eq _ run (by decide) stage,
      pass?_eq _ run (by decide) stage, pass?_eq _ run (by decide) stage⟩
  simp only [Option.bind_eq_bind, Option.bind_some, hcleaned, hinline, hvalues, hsum, htable,
    hbody, hpass]

/-- The run over a document. -/
def ofDocument? (answer? : Reference → Log → Option (Text × Log))
    (screenings : Option ScreeningRegistry) (config : Config) (document : Text) : Option Run := do
  match ← locate? config.startPhrase (Block.mendPhrase document) with
  | .noPhrase => some (Run.located .noPhrase)
  | .flawed flaw => some ((Run.located (.flawed flaw)).record config.mode (.structural flaw))
  | .formula raw => ofFormula? answer? screenings config raw

theorem ofDocument?_eq (h : Resolves answer? resolver) (screenings : Option ScreeningRegistry)
    (config : Config) (document : Text) :
    ofDocument? answer? screenings config document =
      some (Run.ofDocument resolver screenings config document) := by
  rw [ofDocument?, locate?_eq, Run.ofDocument]
  simp only [Option.bind_eq_bind, Option.bind_some]
  cases Block.locate config.startPhrase (Block.mendPhrase document) with
  | noPhrase => rfl
  | flawed flaw => rfl
  | formula raw => exact ofFormula?_eq h screenings config raw

/-! ### References -/

/-- What a run made for `reference` gives; the expanded formula is read from the last place among
the texts of the passes. -/
def textFor? (run : Run) (reference : Reference) : Option Text :=
  match reference.wanted with
  | none => run.outcome.passes[3]?
  | some name => some (run.outcome.variableSource name)

/-- The answer that a run made for `reference` gives, noted in `log`. -/
def answerFrom? (run : Run) (reference : Reference) (log : Log) : Option (Text × Log) :=
  let log := log.watch run.events
  if run.outcome.raw.isEmpty then
    some (reference.placeholder, log.report (.unusable reference.kpi run.outcome.block))
  else do
    let text ← textFor? run reference
    if run.outcome.faults.isEmpty then some (text, log)
    else some (text, log.report (.faulty reference.kpi))

theorem answerFrom?_eq (run : Run) (reference : Reference) (log : Log) :
    answerFrom? run reference log = some (run.answer reference log) := by
  have htext : textFor? run reference = some (run.textFor reference) := by
    rw [textFor?, Run.textFor]
    cases reference.wanted with
    | none => rfl
    | some name => rfl
  rw [answerFrom?, Run.answer, htext]
  simp only [Option.bind_eq_bind, Option.bind_some, ← apply_ite some]

/-- The answer to `reference` while the KPIs on `chain` are being resolved. -/
def resolve? (registries : Registries) (config : Config) (chain : List Text)
    (reference : Reference) (log : Log) : Option (Text × Log) :=
  if _hchain : reference.kpi ∈ chain then
    some (reference.placeholder, log.report (.cyclic chain reference.kpi))
  else
    match _hdoc : registries.lookupKpi reference.kpi with
    | none => some (reference.placeholder, log.report (.unknownKpi reference.kpi))
    | some document => do
      let run ← ofDocument?
        (fun inner log => resolve? registries config.nested (chain ++ [reference.kpi]) inner log)
        registries.screenings config.nested document
      answerFrom? run reference log
termination_by registries.pending chain
decreasing_by exact Registries.pending_lt_of_lookupKpi _hdoc _hchain

/-- **References are resolved** along every chain. -/
theorem resolve?_eq (registries : Registries) (config : Config) (chain : List Text) :
    Resolves (resolve? registries config chain) (CounterFormula.resolver registries config chain) := by
  induction chain using registries.chain_induction generalizing config with
  | extend chain ih =>
      refine ⟨fun reference log => ?_, rfl⟩
      change _ = some (CounterFormula.resolve registries config chain reference log)
      by_cases hmem : reference.kpi ∈ chain
      · rw [resolve?, dif_pos hmem]
        exact congrArg some (resolve_of_mem config log hmem).symm
      · rw [resolve?, dif_neg hmem]
        cases hlookup : registries.lookupKpi reference.kpi with
        | none =>
            rw [resolve_of_lookupKpi_eq_none config log hmem hlookup]
        | some document =>
            have hinner := ih reference.kpi document hmem hlookup config.nested
            rw [resolve_of_lookupKpi config log hmem hlookup]
            dsimp only
            rw [ofDocument?_eq hinner]
            exact answerFrom?_eq _ reference log

/-- The run over `document`. -/
def run? (registries : Registries) (config : Config) (document : Text) : Option Run :=
  ofDocument? (resolve? registries config []) registries.screenings config document

/-- **No run ever fails**, and each is the run that is made.  Whatever text is cut into tokens, in
either mode, one mark stands behind them; a number that is a 64-bit integer is not negative; a
definition has its name and its equals sign; and the reader of a list ends at its first closing
parenthesis or at the mark. -/
theorem run?_eq_some_run (registries : Registries) (config : Config) (document : Text) :
    run? registries config document = some (CounterFormula.run registries config document) ∧
      ∀ mode source, ∃ body faults definitions tableFaults,
        let stream := body ++ [Token.stop source.length]
        lex? mode source = some (stream, faults) ∧
          (∀ token ∈ body, token.kind ≠ .stop) ∧
          (∀ token ∈ body, token.isNumber = true →
            ∀ id, integer? token.text = some id → 0 ≤ id) ∧
          extract? stream = some (definitions, tableFaults) ∧
          (∀ definition ∈ definitions, ∃ name equals value,
            definition.tokens = name :: equals :: value ∧ equals.isOperator '=' = true) ∧
          ∀ i, signAt? stream i = some true → operatorAt stream (i + 2) '(' = true →
            ∃ summation index faults,
              summationAt? stream i = some (summation, index, faults) ∧
                EndsAt stream (i + 3) index := by
  refine ⟨ofDocument?_eq (resolve?_eq registries config []) registries.screenings config document,
    fun mode source => ?_⟩
  have hmade : ∀ token ∈ (lex mode source).body, Lexer.Made token := made_of_mem_body
  obtain ⟨definitions, hextract, hrecords⟩ :=
    extract?_eq (lex mode source).body (.stop source.length)
  refine ⟨(lex mode source).body, (lex mode source).faults, definitions, _, lex?_eq mode source,
    fun token htoken => (hmade token htoken).not_stop, ?_, hextract, tokens_of_records hrecords,
    fun i hsign hopens => endsAt_of_signAt? hmade hsign hopens⟩
  intro token htoken hnumber id hid
  rw [integer?_of_number ((hmade token htoken).number hnumber)] at hid
  exact (bounds_of_readId? hid).1

end CounterFormula.Checked
