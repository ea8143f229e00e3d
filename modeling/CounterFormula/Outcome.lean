import CounterFormula.Clean
import CounterFormula.Fault
import CounterFormula.SymbolTable

/-!
# Outcome

What a run over a document leaves behind: the source text after each pass, the assignments and
symbols found, and the faults met.  Whatever a run does not reach stays empty.
-/

namespace CounterFormula

structure Outcome where
  /-- Where the formula was found. -/
  block : Block
  severity : Severity
  faults : List Fault
  /-- The formula after cleaning. -/
  cleaned : Text
  /-- The formula with references replaced. -/
  inlined : Text
  /-- The formula with variables replaced. -/
  substituted : Text
  /-- The formula with summations expanded. -/
  expanded : Text
  table : List Assignment
  /-- The value text of each variable. -/
  values : List (Text × Text)
  symbols : SymbolTable
  deriving DecidableEq, Repr

namespace Outcome

/-- The outcome of a run that has only looked for its formula. -/
def ofBlock (block : Block) : Outcome where
  block := block
  severity := .normal
  faults := []
  cleaned := []
  inlined := []
  substituted := []
  expanded := []
  table := []
  values := []
  symbols := .empty

/-- The formula as the document has it. -/
def raw (outcome : Outcome) : Text :=
  match outcome.block with
  | .formula text => text
  | _ => []

/-- Whether there is a formula and nothing spoils it. -/
def found (outcome : Outcome) : Bool :=
  outcome.severity != .error && !outcome.raw.isEmpty

/-- The source texts after the passes 0 to 3. -/
def passes (outcome : Outcome) : List Text :=
  [outcome.cleaned, outcome.inlined, outcome.substituted, outcome.expanded]

/-- The outcome with `source` as the text after a pass. -/
def withSource (outcome : Outcome) (source : Text) : Nat → Outcome
  | 0 => { outcome with cleaned := source }
  | 1 => { outcome with inlined := source }
  | 2 => { outcome with substituted := source }
  | 3 => { outcome with expanded := source }
  | _ => outcome

/-- The cleaned formula with summation glyphs. -/
def formula (outcome : Outcome) : Text :=
  Clean.displayed outcome.cleaned

/-- The resolved value of a variable, or a text that says it is missing. -/
def variableSource (outcome : Outcome) (name : Text) : Text :=
  Assignment.sourceOf outcome.values name

/-- All messages, one a line. -/
def errorMessage (outcome : Outcome) : String :=
  String.intercalate "\n" (outcome.faults.map Fault.message)

/-- A text under a heading, closed by an end mark. -/
def passage (heading : String) (text : Text) : String :=
  s!"{heading}:\n{String.ofList text}\n(end)\n"

/-- Where the formula came from, for a reader. -/
def report (outcome : Outcome) : String :=
  let status := s!"Status: {outcome.block.status}\n"
  let status := if outcome.severity = .error then "ERROR: " ++ status else status
  if outcome.raw.isEmpty then status
  else
    status ++ passage "Formula Source" outcome.raw ++ passage "Cleaned Formula" outcome.cleaned

end Outcome

end CounterFormula
