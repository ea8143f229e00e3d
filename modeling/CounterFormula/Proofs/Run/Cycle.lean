import CounterFormula.Proofs.Run.Trace

/-!
# Run — Cycle

Cycles among the KPIs that a document reaches.  A run resolves the references it meets along
every path from the document, and stops at a KPI that is on the path already.  `Raises` is the
part of that exploration that leads to such a KPI.

* `cyclic_mem_trace_resolve`: resolving a reference shows what `Raises` says, and no more.
* `exists_cyclic_mem_events_run_iff`: a run shows one just when the document reaches a cycle.  Each
  KPI that it shows lies on a cycle, so a KPI that is reached along several paths is not shown
  for that.
-/

namespace CounterFormula

open Relation (ReflTransGen TransGen)

/-- `Raises registries config chain id event`: resolving a reference to `id`, while the KPIs on
`chain` are being resolved, comes to a KPI that is under way then, and `event` shows it. -/
inductive Raises (registries : Registries) (config : Config) : List Text → Text → Event → Prop where
  | closed {chain : List Text} {id : Text} (h : id ∈ chain) :
      Raises registries config chain id (.cyclic chain id)
  | nested {chain : List Text} {id other : Text} {event : Event} (h : id ∉ chain)
      (hrefers : registries.Refers config id other)
      (hraises : Raises registries config (chain ++ [id]) other event) :
      Raises registries config chain id event

variable {registries : Registries} {config : Config}

/-! ### The exploration -/

theorem raises_of_mem {chain : List Text} {id : Text} {event : Event} (h : id ∈ chain) :
    Raises registries config chain id event ↔ event = .cyclic chain id := by
  constructor
  · intro hraises
    cases hraises with
    | closed => rfl
    | nested hnot => exact absurd h hnot
  · rintro rfl
    exact .closed h

theorem raises_of_not_mem {chain : List Text} {id : Text} {event : Event} (h : id ∉ chain) :
    Raises registries config chain id event ↔
      ∃ other, registries.Refers config id other ∧
        Raises registries config (chain ++ [id]) other event := by
  constructor
  · intro hraises
    cases hraises with
    | closed hmem => exact absurd hmem h
    | nested _ hrefers hnested => exact ⟨_, hrefers, hnested⟩
  · rintro ⟨other, hrefers, hnested⟩
    exact .nested h hrefers hnested

/-- What a run made for a reference adds to the log, apart from faults of other kinds. -/
theorem cyclic_mem_trace_answer {chain : List Text} {kpi : Text} (run : Run)
    (reference : Reference) (log : Log) :
    .cyclic chain kpi ∈ (run.answer reference log).2.trace ↔
      .cyclic chain kpi ∈ log.trace ∨ .cyclic chain kpi ∈ run.events := by
  rw [← Log.mem_trace_watch, Run.answer]
  split
  · rw [Log.mem_trace_report]
    exact or_iff_left nofun
  · split
    · exact Iff.rfl
    · rw [Log.mem_trace_report]
      exact or_iff_left nofun

theorem tells_resolver {chain under : List Text} {kpi : Text}
    (h : ∀ reference log,
      .cyclic chain kpi ∈ (resolve registries config under reference log).2.trace ↔
        .cyclic chain kpi ∈ log.trace ∨
          Raises registries config.nested under reference.kpi (.cyclic chain kpi)) :
    (resolver registries config under).Tells (.cyclic chain kpi) fun reference =>
      Raises registries config.nested under reference.kpi (.cyclic chain kpi) :=
  ⟨h, fun _ _ => rfl⟩

/-- **Resolving a reference** shows what the exploration raises, and nothing else of its kind. -/
theorem cyclic_mem_trace_resolve {chain : List Text} {kpi : Text} (under : List Text)
    (reference : Reference) (log : Log) :
    .cyclic chain kpi ∈ (resolve registries config under reference log).2.trace ↔
      .cyclic chain kpi ∈ log.trace ∨
        Raises registries config.nested under reference.kpi (.cyclic chain kpi) := by
  induction under using registries.chain_induction generalizing config reference log with
  | extend under ih =>
      by_cases hmem : reference.kpi ∈ under
      · rw [resolve_of_mem config log hmem, Log.mem_trace_report, raises_of_mem hmem]
        exact Iff.rfl
      rw [raises_of_not_mem hmem]
      cases hlookup : registries.lookupKpi reference.kpi with
      | none =>
          rw [resolve_of_lookupKpi_eq_none config log hmem hlookup, Log.mem_trace_report]
          refine or_congr_right ⟨nofun, ?_⟩
          rintro ⟨_, hrefers, -⟩
          exact absurd hrefers (Registries.not_refers hlookup)
      | some document =>
          have htells : (resolver registries config.nested (under ++ [reference.kpi])).Tells
              (.cyclic chain kpi) fun inner => Raises registries config.nested.nested
                (under ++ [reference.kpi]) inner.kpi (.cyclic chain kpi) :=
            tells_resolver (ih _ document hmem hlookup)
          rw [resolve_of_lookupKpi config log hmem hlookup, cyclic_mem_trace_answer]
          refine or_congr_right ((Run.cyclic_mem_events_ofDocument htells _ document).trans ?_)
          rw [Config.nested_nested, Registries.exists_refers_iff hlookup]

/-- A run shows what the references in its formula raise. -/
theorem cyclic_mem_events_run {chain : List Text} {kpi : Text} (document : Text) :
    .cyclic chain kpi ∈ (run registries config document).events ↔
      ∃ reference ∈ Run.references config document,
        Raises registries config.nested [] reference.kpi (.cyclic chain kpi) :=
  Run.cyclic_mem_events_ofDocument (tells_resolver (cyclic_mem_trace_resolve [])) _ document

/-! ### The graph -/

/-- When the KPIs under way all lead to `id`, the one that the exploration comes back to lies on a
cycle, and references lead from `id` to it. -/
theorem Raises.exists_cycle {under : List Text} {id : Text} {event : Event}
    (h : Raises registries config under id event)
    (hunder : ∀ known ∈ under, TransGen (registries.Refers config) known id) :
    ∃ chain kpi, event = .cyclic chain kpi ∧ ReflTransGen (registries.Refers config) id kpi ∧
      TransGen (registries.Refers config) kpi kpi := by
  induction h with
  | @closed chain id hmem => exact ⟨chain, id, rfl, .refl, hunder id hmem⟩
  | @nested chain id other event _ hrefers _ ih =>
      have hnext : ∀ known ∈ chain ++ [id], TransGen (registries.Refers config) known other := by
        intro known hknown
        rcases List.mem_append.mp hknown with hknown | hknown
        · exact (hunder known hknown).tail hrefers
        · rw [List.mem_singleton.mp hknown]
          exact .single hrefers
      obtain ⟨chain', kpi, hevent, hreaches, hcycle⟩ := ih hnext
      exact ⟨chain', kpi, hevent, hreaches.head hrefers, hcycle⟩

/-- A KPI from which references lead to a cycle refers to another such one. -/
theorem exists_refers_of_cycle {id kpi : Text}
    (hreaches : ReflTransGen (registries.Refers config) id kpi)
    (hcycle : TransGen (registries.Refers config) kpi kpi) :
    ∃ other, registries.Refers config id other ∧
      ReflTransGen (registries.Refers config) other kpi := by
  rcases hreaches.cases_head with rfl | hnext
  · exact TransGen.head'_iff.mp hcycle
  · exact hnext

/-- Where references lead to a cycle, the exploration comes back to a KPI under way, whichever
KPIs are under way at its beginning. -/
theorem exists_raises {id kpi : Text} (under : List Text)
    (hreaches : ReflTransGen (registries.Refers config) id kpi)
    (hcycle : TransGen (registries.Refers config) kpi kpi) :
    ∃ chain closing, Raises registries config under id (.cyclic chain closing) := by
  -- not every KPI on the way can be new
  induction under using registries.chain_induction generalizing id with
  | extend under ih =>
      by_cases hmem : id ∈ under
      · exact ⟨under, id, .closed hmem⟩
      · obtain ⟨other, hrefers, hreaches'⟩ := exists_refers_of_cycle hreaches hcycle
        obtain ⟨document, hlookup⟩ := hrefers.exists_lookupKpi
        obtain ⟨chain, closing, hraises⟩ := ih _ document hmem hlookup hreaches'
        exact ⟨chain, closing, .nested hmem hrefers hraises⟩

/-- **Cycles.**  A run over a document shows, at some depth, that a reference leads back into the
KPIs being resolved, just when the document reaches a KPI that lies on a cycle.  Each KPI that is
shown is such a one: a KPI that several paths lead to, and none back, is not shown. -/
theorem exists_cyclic_mem_events_run_iff (registries : Registries) (config : Config)
    (document : Text) :
    ((∃ chain kpi, .cyclic chain kpi ∈ (run registries config document).events) ↔
      ∃ kpi, registries.Reaches config document kpi ∧
        TransGen (registries.Refers config.nested) kpi kpi) ∧
    ∀ chain kpi, .cyclic chain kpi ∈ (run registries config document).events →
      registries.Reaches config document kpi ∧
        TransGen (registries.Refers config.nested) kpi kpi := by
  have hshown : ∀ chain kpi, .cyclic chain kpi ∈ (run registries config document).events →
      registries.Reaches config document kpi ∧
        TransGen (registries.Refers config.nested) kpi kpi := by
    intro chain kpi hmem
    obtain ⟨reference, hreference, hraises⟩ := (cyclic_mem_events_run document).mp hmem
    obtain ⟨chain', kpi', hevent, hreaches, hcycle⟩ := hraises.exists_cycle nofun
    obtain ⟨-, rfl⟩ := Event.cyclic_inj hevent
    exact ⟨Registries.reaches_iff.mpr ⟨reference, hreference, hreaches⟩, hcycle⟩
  refine ⟨⟨?_, ?_⟩, hshown⟩
  · rintro ⟨chain, kpi, hmem⟩
    exact ⟨kpi, hshown chain kpi hmem⟩
  · rintro ⟨kpi, hreached, hcycle⟩
    obtain ⟨reference, hreference, hreaches⟩ := Registries.reaches_iff.mp hreached
    obtain ⟨chain, closing, hraises⟩ := exists_raises [] hreaches hcycle
    exact ⟨chain, closing, (cyclic_mem_events_run document).mpr ⟨reference, hreference, hraises⟩⟩

end CounterFormula
