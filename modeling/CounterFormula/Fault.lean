import CounterFormula.Assignment
import CounterFormula.Reference
import CounterFormula.Summation

/-!
# Fault

Everything that can be wrong with a formula, with the pass that finds it, and how far a run
with faults can be trusted.  A run goes on after a fault, so faults are collected and never
thrown.

* `severity_eq_warning`: only a missing block and, in strict mode, a bad character spoil a run.
-/

namespace CounterFormula

/-- What part of a formula a fault concerns. -/
inductive FaultKind where
  | structural
  | lexical
  | reference
  | var
  | summation
  deriving DecidableEq, Repr

/-- How far a run can be trusted. -/
inductive Severity where
  | normal
  | warning
  | error
  deriving DecidableEq, Repr

namespace Severity

def word : Severity → String
  | normal => "normal"
  | warning => "warning"
  | error => "error"

/-- The worse of two severities. -/
def max : Severity → Severity → Severity
  | error, _ | _, error => error
  | warning, _ | _, warning => warning
  | normal, normal => normal

/-- The worst of many severities; `normal` of none. -/
def worst (severities : List Severity) : Severity :=
  severities.foldl max normal

theorem worst_concat (severities : List Severity) (severity : Severity) :
    worst (severities ++ [severity]) = (worst severities).max severity := by
  rw [worst, List.foldl_append]
  rfl

end Severity

namespace FaultKind

/-- The kind as a data file spells it. -/
def word : FaultKind → String
  | structural => "structural"
  | lexical => "lexical"
  | reference => "reference"
  | var => "variable"
  | summation => "summation"

def all : List FaultKind := [structural, lexical, reference, var, summation]

/-- The kind that a data file spells so. -/
def ofWord? (word : Text) : Option FaultKind :=
  all.find? fun kind => kind.word.toList == word

/-- What a fault of the kind makes of a run. -/
def severity (mode : Mode) : FaultKind → Severity
  | structural => .error
  | lexical =>
    match mode with
    | .strict => .error
    | .relaxed => .warning
  | reference | var | summation => .warning

end FaultKind

/-- A fault as it is reported. -/
structure FaultRecord where
  kind : FaultKind
  /-- The pass that found it: 0 to 3 for those that change the text, 4 for the symbols. -/
  pass : Nat
  message : String
  deriving DecidableEq, Repr

/-- What can be wrong with a formula. -/
inductive Fault where
  | structural (flaw : BlockFlaw)
  /-- A hash mark is left after cleaning. -/
  | strayHash
  | lexical (pass : Nat) (fault : LexicalFault)
  | reference (fault : ReferenceFault)
  | assignment (fault : AssignmentFault)
  /-- A variable is left after all passes. -/
  | undefined (name : Text)
  | summation (fault : SummationFault)
  deriving DecidableEq, Repr

namespace Fault

def kind : Fault → FaultKind
  | structural _ => .structural
  | strayHash | lexical _ _ => .lexical
  | reference _ => .reference
  | assignment _ | undefined _ => .var
  | summation _ => .summation

/-- The pass that finds the fault. -/
def pass : Fault → Nat
  | structural _ | strayHash => 0
  | lexical pass _ => pass
  | reference _ => 1
  | assignment _ => 2
  | summation _ => 3
  | undefined _ => 4

def message : Fault → String
  | structural flaw => flaw.message
  | strayHash =>
    "## must be preceded by a plus, minus, open paren, or multiplication symbol"
  | lexical _ fault => fault.message
  | reference fault => fault.message
  | assignment fault => fault.message
  | undefined name => s!"Variable not defined ({String.ofList name})"
  | summation fault => fault.message

def record (fault : Fault) : FaultRecord :=
  ⟨fault.kind, fault.pass, fault.message⟩

def severity (mode : Mode) (fault : Fault) : Severity :=
  fault.kind.severity mode

theorem severity_eq_warning {mode : Mode} {fault : Fault} (hkind : fault.kind ≠ .structural)
    (hmode : fault.kind = .lexical → mode = .relaxed) : fault.severity mode = .warning := by
  unfold severity
  cases h : fault.kind with
  | structural => exact absurd h hkind
  | lexical => simp [FaultKind.severity, hmode h]
  | reference | var | summation => rfl

end Fault

end CounterFormula
