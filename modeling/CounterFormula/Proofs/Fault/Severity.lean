import CounterFormula.Fault
import Mathlib.Order.Bounds.Defs

/-!
# Fault — Severity

The order of severities, and what the faults of a run make of it.

* `isGreatest_worst`: the worst of many severities is one of them, and no other is worse.
* `Fault.warning_le_severity`: no fault is harmless.
-/

namespace CounterFormula

namespace Severity

/-- How bad a severity is. -/
def rank : Severity → Nat
  | normal => 0
  | warning => 1
  | error => 2

instance : LE Severity := ⟨fun a b => a.rank ≤ b.rank⟩

instance (a b : Severity) : Decidable (a ≤ b) := Nat.decLe a.rank b.rank

variable {severity other : Severity} {severities : List Severity}

theorem le_refl (severity : Severity) : severity ≤ severity :=
  Nat.le_refl severity.rank

theorem le_trans {worse : Severity} (h : severity ≤ other) (h' : other ≤ worse) :
    severity ≤ worse :=
  Nat.le_trans (show severity.rank ≤ other.rank from h) h'

theorem eq_normal_of_le (h : severity ≤ normal) : severity = normal := by
  cases severity with
  | normal => rfl
  | warning | error => exact absurd h (Nat.not_succ_le_zero _)

theorem le_max_left (severity other : Severity) : severity ≤ severity.max other := by
  cases severity <;> cases other <;> decide

theorem le_max_right (severity other : Severity) : other ≤ severity.max other := by
  cases severity <;> cases other <;> decide

theorem max_eq (severity other : Severity) :
    severity.max other = severity ∨ severity.max other = other := by
  cases severity <;> cases other <;> decide

/-- What is gathered is no better than what it began with or any that came later, and is one of
these. -/
theorem foldl_max (start : Severity) (severities : List Severity) :
    start ≤ severities.foldl max start ∧ (∀ s ∈ severities, s ≤ severities.foldl max start) ∧
      (severities.foldl max start = start ∨ severities.foldl max start ∈ severities) := by
  induction severities generalizing start with
  | nil => exact ⟨le_refl start, nofun, .inl rfl⟩
  | cons first rest ih =>
      obtain ⟨hstart, hrest, hfound⟩ := ih (start.max first)
      refine ⟨le_trans (le_max_left start first) hstart, ?_, ?_⟩
      · exact List.forall_mem_cons.mpr ⟨le_trans (le_max_right start first) hstart, hrest⟩
      · rcases hfound with hfound | hfound
        · rcases max_eq start first with hmax | hmax
          · exact .inl (hfound.trans hmax)
          · refine .inr ?_
            rw [List.foldl_cons, hfound, hmax]
            exact List.mem_cons_self
        · exact .inr (List.mem_cons_of_mem first hfound)

/-- **The worst of many** is one of them, and none is worse. -/
theorem isGreatest_worst (h : severities ≠ []) :
    IsGreatest {s | s ∈ severities} (worst severities) := by
  obtain ⟨-, hle, hfound⟩ := foldl_max normal severities
  refine ⟨?_, fun s hs => hle s hs⟩
  rcases hfound with hnormal | hmem
  · -- then all of them are normal
    obtain ⟨first, hfirst⟩ := List.exists_mem_of_ne_nil severities h
    have hle := hle first hfirst
    rw [hnormal] at hle
    have hworst : worst severities = normal := hnormal
    rw [hworst, ← eq_normal_of_le hle]
    exact hfirst
  · exact hmem

end Severity

/-- **No fault is harmless.** -/
theorem Fault.warning_le_severity (mode : Mode) (fault : Fault) :
    .warning ≤ fault.severity mode := by
  rw [severity]
  cases mode <;> cases fault.kind <;> decide

end CounterFormula
