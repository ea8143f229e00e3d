import CounterFormula.Registry.Kpi
import CounterFormula.Registry.Screening

/-!
# Registry

The two registries that a run may consult; either may be missing.  The first entry made in a
missing registry creates it.
-/

namespace CounterFormula

structure Registries where
  kpis : Option KpiRegistry
  screenings : Option ScreeningRegistry
  deriving DecidableEq, Repr

namespace Registries

/-- No registry at all. -/
def none : Registries := ⟨.none, .none⟩

/-- The formula document of a KPI; none without a registry. -/
def lookupKpi (registries : Registries) (id : Text) : Option Text :=
  registries.kpis.bind fun kpis => kpis.lookup id

/-- How many registered KPI ids are not on `chain`. -/
def pending (registries : Registries) (chain : List Text) : Nat :=
  (registries.kpis.getD .empty).pending chain

theorem pending_lt_of_lookupKpi {registries : Registries} {chain : List Text} {id document : Text}
    (hid : registries.lookupKpi id = some document) (hchain : id ∉ chain) :
    registries.pending (chain ++ [id]) < registries.pending chain := by
  obtain ⟨kpis, hkpis, hlookup⟩ := Option.bind_eq_some_iff.mp hid
  simp only [pending, hkpis, Option.getD_some]
  exact KpiRegistry.pending_lt (KpiRegistry.mem_ids_of_lookup hlookup) hchain

/-- `registries` with `document` as the document of the KPI `id`. -/
def insertKpi (registries : Registries) (id document : Text) : Registries :=
  { registries with kpis := some ((registries.kpis.getD .empty).insert id document) }

/-- `registries` with one more screening. -/
def pushScreening (registries : Registries) (row : Screening) : Registries :=
  { registries with screenings := some ((registries.screenings.getD .empty).push row) }

/-- `registries` with unversioned screenings of one counter. -/
def addCounter (registries : Registries) (counter release : Text)
    (screenings : List (Int × Text)) : Registries :=
  { registries with
    screenings :=
      some ((registries.screenings.getD .empty).addCounter counter release screenings) }

end Registries

end CounterFormula
