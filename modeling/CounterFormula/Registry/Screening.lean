import CounterFormula.Ascending
import CounterFormula.Text.Basic

/-!
# Registry — Screening

The screenings of the known counters: for each release, and often for each version of it, the
numbered kinds of event that a counter tells apart.
-/

namespace CounterFormula

/-- One screening of a counter. -/
structure Screening where
  counter : Text
  release : Text
  version : Option Text
  id : Int
  /-- The name that is put behind the counter's. -/
  suffix : Text
  deriving DecidableEq, Repr

/-- The known screenings in the order they were entered. -/
structure ScreeningRegistry where
  rows : List Screening
  deriving DecidableEq, Repr

namespace ScreeningRegistry

def empty : ScreeningRegistry := ⟨[]⟩

def push (registry : ScreeningRegistry) (row : Screening) : ScreeningRegistry :=
  ⟨registry.rows ++ [row]⟩

/-- `registry` with screenings of `counter` for `release`, of no version, at its end. -/
def addCounter (registry : ScreeningRegistry) (counter release : Text)
    (screenings : List (Int × Text)) : ScreeningRegistry :=
  ⟨registry.rows ++
    screenings.map fun (id, suffix) => ⟨counter, release, none, id, suffix⟩⟩

/-- The screenings of `counter` in `release`, narrowed to `version` when one is given. -/
def query (registry : ScreeningRegistry) (counter release : Text) (version : Option Text) :
    List Screening :=
  registry.rows.filter fun row =>
    row.counter == counter && row.release == release &&
      (version.isNone || row.version == version)

/-- The versions that occur in `release`, each once, the greatest first. -/
def versions (registry : ScreeningRegistry) (release : Text) : List Text :=
  (Ascending.ofList
    ((registry.rows.filter fun row => row.release == release).filterMap
      Screening.version)).reverse

end ScreeningRegistry

end CounterFormula
