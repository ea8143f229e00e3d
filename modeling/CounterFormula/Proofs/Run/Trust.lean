import CounterFormula.CommandLine
import CounterFormula.Proofs.Run.Cycle
import CounterFormula.Proofs.Run.Independence
import CounterFormula.Proofs.Run.Propagation

/-!
# Run — Trust

How far a KPI that is expanded on its own is trusted, next to the run over its document.  The run
has a severity, the worst of its faults.  Of these faults the expansion keeps no more than that
there are some, as one fault of the reference, which makes it a warning, whether the run is a
warning or spoilt.

The run over the document is the one made for the reference, while the KPI is being resolved, or
the run of its own, while none is.  These differ where the KPI leads back to itself, but not in
whether they have faults: a KPI on a cycle has some in both.

* `faults_resolve_ne_nil`: a reference that leads back to a KPI being resolved leads to a fault.
* `faults_runUnder_eq_nil_iff`: the two runs over the document of a KPI have faults in the same
  cases.
* `severity_expandReference`: an expansion is a warning where the run has a fault or no formula, and
  never worse.
-/

namespace CounterFormula

open Relation (ReflTransGen TransGen)

/-! ### The severity of an expansion -/

/-- The worst severity of the faults of an expansion. -/
def Expansion.severity (mode : Mode) (expansion : Expansion) : Severity :=
  Severity.worst ((expansion.faults.map Fault.reference).map (Fault.severity mode))

/-- An expansion with faults is a warning: all of them are faults of references. -/
theorem Expansion.severity_eq (mode : Mode) (expansion : Expansion) :
    expansion.severity mode = if expansion.faults = [] then .normal else .warning := by
  rw [severity, List.map_map]
  by_cases h : expansion.faults = []
  · rw [if_pos h, h]
    rfl
  · rw [if_neg h]
    have hne : expansion.faults.map (Fault.severity mode ∘ Fault.reference) ≠ [] :=
      mt List.map_eq_nil_iff.mp h
    have hworst := (Severity.isGreatest_worst hne).1
    obtain ⟨fault, -, hfault⟩ := List.mem_map.mp hworst
    rw [← hfault]
    exact Fault.severity_eq_warning nofun nofun

variable {registries : Registries} {config : Config} {chain : List Text} {reference : Reference}
  {id document : Text}

/-- A KPI that has a document is expanded without a fault just when the run made for it has found a
formula and met no fault. -/
theorem faults_expandReference_eq_nil_iff
    (hlookup : registries.lookupKpi reference.kpi = some document) :
    (expandReference registries config reference).faults = [] ↔
      let outcome := (runUnder registries config.nested [reference.kpi] document).outcome
      outcome.raw ≠ [] ∧ outcome.faults = [] := by
  have hfaults : (expandReference registries config reference).faults =
      ((runUnder registries config.nested [reference.kpi] document).answer reference
        .empty).2.faults :=
    congrArg (fun answer : Text × Log => answer.2.faults)
      (resolve_of_lookupKpi config .empty List.not_mem_nil hlookup)
  rw [hfaults]
  exact Run.faults_answer_eq_nil_iff

/-! ### Cycles -/

/-- **A reference that leads back** to a KPI being resolved leads to a fault. -/
theorem faults_resolve_ne_nil {event : Event}
    (h : Raises registries config.nested chain reference.kpi event) :
    (resolve registries config chain reference .empty).2.faults ≠ [] := by
  induction chain using registries.chain_induction generalizing config reference with
  | extend chain ih =>
      cases h with
      | closed hmem =>
          rw [resolve_of_mem config .empty hmem]
          exact List.cons_ne_nil _ _
      | nested hnew hrefers hraises =>
          obtain ⟨document, hlookup, inner, hinner, rfl⟩ := Registries.refers_iff.mp hrefers
          rw [resolve_of_lookupKpi config .empty hnew hlookup]
          intro hnil
          obtain ⟨-, hfaultless⟩ := Run.faults_answer_eq_nil_iff.mp hnil
          rw [← Config.nested_nested] at hraises
          exact ih _ document hnew hlookup hraises
            (faults_resolve_of_references (congrArg _ hfaultless) hinner)

/-- A KPI whose document is run without a fault, whatever is being resolved, lies on no cycle. -/
theorem not_transGen_of_faultless (hlookup : registries.lookupKpi id = some document)
    (h : (runUnder registries config.nested chain document).outcome.faults = []) :
    ¬ TransGen (registries.Refers config.nested) id id := by
  intro hcycle
  obtain ⟨other, hrefers, hreaches⟩ := TransGen.head'_iff.mp hcycle
  obtain ⟨found, hfound, inner, hinner, rfl⟩ := Registries.refers_iff.mp hrefers
  obtain rfl := Option.some.inj (hlookup.symm.trans hfound)
  obtain ⟨under, closing, hraises⟩ := exists_raises chain hreaches hcycle
  rw [← Config.nested_nested] at hraises
  exact faults_resolve_ne_nil hraises (faults_resolve_of_references (congrArg _ h) hinner)

/-- References lead to whatever is met. -/
theorem Meets.reflTransGen {met : Text} (h : Meets registries config chain id met) :
    ReflTransGen (registries.Refers config) id met := by
  induction h with
  | itself => exact .refl
  | inside _ hrefers _ ih => exact ih.head hrefers

/-- The run over the document of a KPI that lies on no cycle does not depend on whether the KPI is
being resolved, but for the chains that its faults show. -/
theorem unchained_runUnder (hlookup : registries.lookupKpi id = some document)
    (hacyclic : ¬ TransGen (registries.Refers config.nested) id id) :
    (runUnder registries config.nested [id] document).outcome.unchained =
      (runUnder registries config.nested [] document).outcome.unchained := by
  have halike : (resolver registries config.nested ([id] ++ [])).Alike
      (fun inner => inner ∈ Run.references config.nested document)
      (resolver registries config.nested []) := by
    refine resolver_alike fun inner hinner log log' hlog => resolve_append [] ?_ hlog
    intro met hmeets hmem
    obtain rfl := List.mem_singleton.mp hmem
    rw [Config.nested_nested] at hmeets
    have hrefers := Registries.refers_of_mem hlookup hinner
    exact hacyclic (.head' hrefers hmeets.reflTransGen)
  exact Run.unchained_ofDocument halike registries.screenings fun _ hinner => hinner

/-- **The two runs** over the document of a KPI, made for a reference to it and on its own, have
faults in the same cases. -/
theorem faults_runUnder_eq_nil_iff (hlookup : registries.lookupKpi id = some document) :
    (runUnder registries config.nested [id] document).outcome.faults = [] ↔
      (runUnder registries config.nested [] document).outcome.faults = [] := by
  by_cases hcycle : TransGen (registries.Refers config.nested) id id
  · exact ⟨fun h => absurd hcycle (not_transGen_of_faultless hlookup h),
      fun h => absurd hcycle (not_transGen_of_faultless hlookup h)⟩
  · have hfaults : (runUnder registries config.nested [id] document).outcome.faults.map
        Fault.unchained =
        (runUnder registries config.nested [] document).outcome.faults.map Fault.unchained :=
      congrArg Outcome.faults (unchained_runUnder hlookup hcycle)
    rw [← List.map_eq_nil_iff, hfaults, List.map_eq_nil_iff]

/-- Where the formula of a document is found does not depend on what is being resolved. -/
theorem raw_runUnder (registries : Registries) (config : Config) (chain : List Text)
    (document : Text) :
    (runUnder registries config chain document).outcome.raw =
      (runUnder registries config [] document).outcome.raw := by
  rw [Outcome.raw, Outcome.raw, runUnder, runUnder, Run.block_ofDocument, Run.block_ofDocument]

/-! ### Expansion and run -/

/-- A spoilt run has met a fault. -/
theorem faults_ne_nil_of_severity
    (h : (runUnder registries config chain document).outcome.severity = .error) :
    (runUnder registries config chain document).outcome.faults ≠ [] := by
  intro hnil
  rw [runUnder, Run.severity_ofDocument] at h
  rw [runUnder] at hnil
  rw [hnil] at h
  cases h

/-- **A spoilt run is shown as a warning.**  Let a KPI be registered, and take the run over its
document, made for a reference to it or on its own.  The expansion of the KPI is a warning if the
run has found no formula or met a fault, and normal otherwise.  It is never worse: that a spoilt run
is shown as spoilt holds just when the run is not spoilt.  The command that shows the expansion
always exits with 0, so it exits as the command that runs the document does in the same cases. -/
theorem severity_expandReference (registries : Registries) (config : Config)
    (reference : Reference) (hlookup : registries.lookupKpi reference.kpi = some document)
    (hchain : chain = [] ∨ chain = [reference.kpi]) :
    let expansion := expandReference registries config reference
    let shown := expansion.severity config.mode
    let outcome := (runUnder registries config.nested chain document).outcome
    (shown = if outcome.raw ≠ [] ∧ outcome.faults = [] then .normal else .warning) ∧
      (outcome.severity = .error → shown = .warning) ∧
      ((outcome.severity = .error → shown = .error) ↔ outcome.severity ≠ .error) ∧
      ∀ format quiet,
        let code := (CommandLine.kpiResponse format quiet config.mode reference expansion).code
        code = 0 ∧
          (code = (CommandLine.parseResponse format quiet outcome).code ↔
            outcome.severity ≠ .error) := by
  intro expansion shown outcome
  have hfaultless : expansion.faults = [] ↔ outcome.raw ≠ [] ∧ outcome.faults = [] := by
    rw [faults_expandReference_eq_nil_iff hlookup]
    rcases hchain with rfl | rfl
    · exact and_congr (by rw [raw_runUnder]) (faults_runUnder_eq_nil_iff hlookup)
    · exact Iff.rfl
  have hshown : shown = if outcome.raw ≠ [] ∧ outcome.faults = [] then .normal else .warning := by
    simp only [shown, Expansion.severity_eq, hfaultless]
  have hwarning : outcome.severity = .error → shown = .warning := fun hspoilt => by
    rw [hshown, if_neg fun hboth => faults_ne_nil_of_severity hspoilt hboth.2]
  have hne : shown ≠ .error := by
    rw [hshown]
    split <;> nofun
  refine ⟨hshown, hwarning, ⟨fun h hspoilt => hne (h hspoilt), fun h hspoilt => absurd hspoilt h⟩,
    fun format quiet => ?_⟩
  have hcode : (CommandLine.kpiResponse format quiet config.mode reference expansion).code = 0 :=
    if_neg hne
  refine ⟨hcode, ?_⟩
  rw [hcode]
  by_cases hspoilt : outcome.severity = .error <;> simp [CommandLine.parseResponse, hspoilt]

/-- A bad character spoils both runs over the document of `K`, which also leads back to `K`. -/
theorem severity_expandReference_of_bad_character :
    let document := "eNB Counter Method: BEGIN A?(Formula://EnbCounterMethod/K) END".toList
    let registries : Registries := { kpis := some ⟨[(['K'], document)]⟩, screenings := none }
    let reference : Reference := ⟨['K'], none⟩
    let expansion := expandReference registries .default reference
    let made := (runUnder registries Config.default.nested [['K']] document).outcome
    let own := (runUnder registries Config.default.nested [] document).outcome
    registries.lookupKpi ['K'] = some document ∧
      made.severity = .error ∧ own.severity = .error ∧ expansion.severity .strict = .warning ∧
      (CommandLine.kpiResponse .text false .strict reference expansion).code ≠
        (CommandLine.parseResponse .text false own).code := by
  intro document registries reference expansion made own
  have hmade : made.severity = .error := by decide +kernel
  have hown : own.severity = .error := by decide +kernel
  have hlookup : registries.lookupKpi ['K'] = some document := rfl
  obtain ⟨-, hshown, -, -⟩ := severity_expandReference registries .default reference hlookup
    (.inr rfl : [['K']] = [] ∨ [['K']] = [reference.kpi])
  obtain ⟨-, -, -, hcodes⟩ := severity_expandReference registries .default reference hlookup
    (.inl rfl : [] = [] ∨ [] = [reference.kpi])
  exact ⟨hlookup, hmade, hown, hshown hmade, fun h => (hcodes .text false).2.mp h hown⟩

/-- The block of `K` has no end, and the formula of `L` has a bad character.  Each run over their
documents is spoilt, and the command exits with 2; expanded, they are no worse than a warning, and
it exits with 0. -/
theorem severity_expandReference_ne_error :
    let unclosed := "eNB Counter Method: BEGIN A".toList
    let misspelt := "eNB Counter Method: BEGIN A?B END".toList
    let registries : Registries :=
      { kpis := some ⟨[(['K'], unclosed), (['L'], misspelt)]⟩, screenings := none }
    let severity (chain : List Text) (document : Text) :=
      (runUnder registries Config.default.nested chain document).outcome.severity
    let expansion (id : Text) := expandReference registries .default ⟨id, none⟩
    let parsed (document : Text) :=
      CommandLine.parseResponse .text false (run registries Config.default.nested document).outcome
    let expanded (id : Text) :=
      CommandLine.kpiResponse .text false .strict ⟨id, none⟩ (expansion id)
    (registries.lookupKpi ['K'] = some unclosed ∧
      severity [] unclosed = .error ∧ severity [['K']] unclosed = .error ∧
      (expansion ['K']).severity .strict ≠ .error ∧
      (parsed unclosed).code = 2 ∧ (expanded ['K']).code = 0) ∧
    registries.lookupKpi ['L'] = some misspelt ∧
      severity [] misspelt = .error ∧ severity [['L']] misspelt = .error ∧
      (expansion ['L']).severity .strict ≠ .error ∧
      (parsed misspelt).code = 2 ∧ (expanded ['L']).code = 0 := by
  decide +kernel

end CounterFormula
