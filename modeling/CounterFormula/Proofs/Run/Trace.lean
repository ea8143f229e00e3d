import CounterFormula.Proofs.Run.References

/-!
# Run — Trace

What an observer sees of the references in a formula.  A run reports the faults of its own
references after pass 1, behind what the runs made for them have shown; `Log.trace` is both.

A resolver may add to the log whenever it is asked.  `Resolver.Tells` says of one event which
references make a resolver add it; nothing else in a run adds an event like that, so whether it is
seen depends on the references in the formula alone.

* `mem_trace_substitute`: what `substitute` adds to a log, each occurrence has added.
* `cyclic_mem_events_ofDocument`: a run shows a reference back into a chain just when one of the
  references in its formula makes the resolver tell of it.
-/

namespace CounterFormula

/-- What an observer sees of a reference to `kpi` that leads back into `chain`. -/
def Event.cyclic (chain : List Text) (kpi : Text) : Event :=
  .fault (.reference (.cyclic chain kpi))

theorem Event.cyclic_inj {chain other : List Text} {kpi id : Text}
    (h : Event.cyclic chain kpi = .cyclic other id) : chain = other ∧ kpi = id :=
  ReferenceFault.cyclic.inj (Fault.reference.inj (Event.fault.inj h))

namespace Log

/-- All that an observer sees of what `log` holds. -/
def trace (log : Log) : List Event :=
  log.events ++ log.faults.map fun fault => .fault (.reference fault)

theorem mem_trace_empty {event : Event} : ¬ event ∈ Log.empty.trace :=
  List.not_mem_nil

theorem mem_trace_report {event : Event} {fault : ReferenceFault} {log : Log} :
    event ∈ (log.report fault).trace ↔ event ∈ log.trace ∨ event = .fault (.reference fault) := by
  rw [trace, report, List.map_append, ← List.append_assoc, List.mem_append, List.map_singleton,
    List.mem_singleton]
  exact Iff.rfl

theorem mem_trace_watch {event : Event} {events : List Event} {log : Log} :
    event ∈ (log.watch events).trace ↔ event ∈ log.trace ∨ event ∈ events := by
  simp only [trace, watch, List.mem_append]
  exact ⟨fun h => h.elim (fun h => h.elim (.inl ∘ .inl) .inr) (.inl ∘ .inr),
    fun h => h.elim (fun h => h.elim (.inl ∘ .inl) .inr) (.inl ∘ .inr)⟩

end Log

/-! ### Resolvers -/

namespace Reference

variable {resolver : Resolver Log} {event : Event} {raises : Reference → Prop}

/-- `resolver` adds `event` to the log for the references that `raises` holds of, and for no
others; a malformed reference it reports. -/
structure Resolver.Tells (resolver : Resolver Log) (event : Event) (raises : Reference → Prop) :
    Prop where
  resolve : ∀ reference log,
    event ∈ (resolver.resolve reference log).2.trace ↔ event ∈ log.trace ∨ raises reference
  report : ∀ fault log, resolver.report fault log = log.report fault

/-- The occurrence makes a resolver add `event`. -/
def Occurrence.Raises (event : Event) (raises : Reference → Prop) : Occurrence → Prop
  | wellFormed reference _ => raises reference
  | malformed fault _ => event = .fault (.reference fault)

theorem mem_trace_answers (h : resolver.Tells event raises) (occurrences : List Occurrence)
    (log : Log) :
    event ∈ (answers resolver occurrences log).2.trace ↔
      event ∈ log.trace ∨ ∃ occurrence ∈ occurrences, occurrence.Raises event raises := by
  induction occurrences with
  | nil =>
      refine ⟨.inl, ?_⟩
      rintro (h | ⟨_, h, -⟩)
      · exact h
      · cases h
  | cons occurrence rest ih =>
      simp only [List.mem_cons, exists_eq_or_imp]
      rw [or_left_comm, ← ih, or_comm]
      cases occurrence with
      | wellFormed reference span =>
          rw [answers_wellFormed]
          exact h.resolve reference _
      | malformed fault span =>
          rw [answers_malformed, h.report]
          exact Log.mem_trace_report

/-- **What `substitute` adds** to a log, the occurrences have added. -/
theorem mem_trace_substitute (h : resolver.Tells event raises) (source : Text)
    (tokens : List Token) (log : Log) :
    event ∈ (substitute resolver source tokens log).2.trace ↔
      event ∈ log.trace ∨ ∃ occurrence ∈ occurrences tokens, occurrence.Raises event raises := by
  rw [substitute_eq_spliceAll]
  exact mem_trace_answers h (occurrences tokens) log

/-- A malformed reference leads back nowhere. -/
theorem cyclic_raises_iff {chain : List Text} {kpi : Text} (tokens : List Token) :
    (∃ occurrence ∈ occurrences tokens, occurrence.Raises (.cyclic chain kpi) raises) ↔
      ∃ site ∈ sites tokens, raises site.1 := by
  constructor
  · rintro ⟨occurrence, hmem, hraises⟩
    cases occurrence with
    | wellFormed reference span =>
        exact ⟨(reference, span), List.mem_filterMap.mpr ⟨_, hmem, rfl⟩, hraises⟩
    | malformed fault span =>
        obtain rfl : ReferenceFault.cyclic chain kpi = fault :=
          Fault.reference.inj (Event.fault.inj hraises)
        cases mem_occurrences_iff.mp hmem with
        | malformed _ hpath => cases hpath
  · rintro ⟨site, hmem, hraises⟩
    obtain ⟨occurrence, hoccurrence, hsite⟩ := List.mem_filterMap.mp hmem
    cases occurrence with
    | wellFormed reference span =>
        cases Option.some.inj hsite
        exact ⟨_, hoccurrence, hraises⟩
    | malformed fault span => cases hsite

end Reference

/-! ### Passes -/

namespace Stage

variable {chain : List Text} {kpi : Text}

/-- A pass shows what went on inside it and its own faults. -/
theorem cyclic_mem_events {stage : Stage} {number : Nat} :
    .cyclic chain kpi ∈ stage.events number ↔
      .cyclic chain kpi ∈ stage.inner ∨ .reference (.cyclic chain kpi) ∈ stage.faults := by
  rw [events, List.mem_append, List.mem_append, List.mem_map, or_assoc]
  refine or_congr_right ⟨?_, ?_⟩
  · rintro (⟨fault, hmem, hfault⟩ | hpass)
    · rwa [← Event.fault.inj hfault]
    · cases List.mem_singleton.mp hpass
  · intro hmem
    exact .inl ⟨_, hmem, rfl⟩

/-- Cutting the source of a pass into tokens finds no fault of a reference. -/
theorem reference_mem_faults_reach {mode : Mode} {number : Nat} {source : Text}
    {faults : List Fault} {fault : ReferenceFault} :
    .reference fault ∈ (reach mode number source faults).faults ↔ .reference fault ∈ faults := by
  rw [reach, List.mem_append]
  refine ⟨?_, .inl⟩
  rintro (h | h)
  · exact h
  · obtain ⟨_, -, hfault⟩ := List.mem_map.mp h
    cases hfault

/-- A pass that meets no faults of references shows none. -/
theorem cyclic_not_mem_events_reach {mode : Mode} {number n : Nat} {source : Text}
    {faults : List Fault} (h : ∀ fault ∈ faults, fault.kind ≠ .reference) :
    .cyclic chain kpi ∉ (reach mode number source faults).events n := by
  rw [cyclic_mem_events, reference_mem_faults_reach]
  rintro (hinner | hmem)
  · cases hinner
  · exact h _ hmem rfl

theorem cyclic_not_mem_events_clean (config : Config) (raw : Text) :
    .cyclic chain kpi ∉ (clean config raw).events 0 := by
  refine cyclic_not_mem_events_reach fun fault hmem => ?_
  split at hmem
  · cases List.mem_singleton.mp hmem
    exact nofun
  · cases hmem

/-- Pass 1 shows what its references have led to. -/
theorem cyclic_mem_events_reachInlined {config : Config} {source : Text} {log : Log} :
    .cyclic chain kpi ∈ (reachInlined config source log).events 1 ↔
      .cyclic chain kpi ∈ log.trace := by
  rw [cyclic_mem_events, Log.trace, List.mem_append]
  refine or_congr_right ?_
  rw [show (reachInlined config source log).faults =
      (reach config.mode 1 source (log.faults.map Fault.reference)).faults from rfl,
    reference_mem_faults_reach, List.mem_map, List.mem_map]
  refine ⟨?_, ?_⟩
  · rintro ⟨fault, hmem, hfault⟩
    exact ⟨fault, hmem, congrArg Event.fault hfault⟩
  · rintro ⟨fault, hmem, hfault⟩
    exact ⟨fault, hmem, Event.fault.inj hfault⟩

theorem cyclic_mem_events_inline {config : Config} {resolver : Reference.Resolver Log}
    {raises : Reference → Prop} (h : resolver.Tells (.cyclic chain kpi) raises) (stage : Stage) :
    .cyclic chain kpi ∈ (stage.inline config resolver).events 1 ↔
      ∃ reference ∈ stage.references, raises reference := by
  rw [inline, references]
  split
  · rw [cyclic_mem_events_reachInlined, Reference.mem_trace_substitute h,
      Reference.cyclic_raises_iff]
    constructor
    · rintro (hempty | ⟨site, hmem, hraises⟩)
      · exact absurd hempty Log.mem_trace_empty
      · exact ⟨site.1, List.mem_map_of_mem hmem, hraises⟩
    · rintro ⟨reference, hmem, hraises⟩
      obtain ⟨site, hsite, rfl⟩ := List.mem_map.mp hmem
      exact .inr ⟨site, hsite, hraises⟩
  · rw [cyclic_mem_events]
    constructor
    · rintro (hinner | hfault)
      · cases hinner
      · cases hfault
    · rintro ⟨_, hmem, -⟩
      cases hmem

end Stage

/-! ### Runs -/

namespace Run

variable {chain : List Text} {kpi : Text}

/-- Only pass 1 of a run is about references. -/
theorem cyclic_mem_events_ofInlined {screenings : Option ScreeningRegistry} {config : Config}
    {raw : Text} {inlined : Stage} :
    .cyclic chain kpi ∈ (ofInlined screenings config raw (Stage.clean config raw) inlined).events ↔
      .cyclic chain kpi ∈ inlined.events 1 := by
  simp only [ofInlined_eq]
  rw [List.mem_append, List.mem_append, List.mem_append, List.mem_append]
  constructor
  · rintro ((((h | h) | h) | h) | h)
    · exact absurd h (Stage.cyclic_not_mem_events_clean config raw)
    · exact h
    · exact absurd h (Stage.cyclic_not_mem_events_reach
        (List.forall_mem_map.mpr fun _ _ => nofun))
    · exact absurd h (Stage.cyclic_not_mem_events_reach
        (List.forall_mem_map.mpr fun _ _ => nofun))
    · obtain ⟨fault, hmem, hfault⟩ := List.mem_map.mp h
      obtain ⟨name, -, rfl⟩ := List.mem_map.mp hmem
      cases hfault
  · intro h
    exact .inl (.inl (.inl (.inr h)))

/-- **What a run shows** of references back into a chain, the references in its formula have made
the resolver tell. -/
theorem cyclic_mem_events_ofDocument {config : Config} {resolver : Reference.Resolver Log}
    {raises : Reference → Prop} (h : resolver.Tells (.cyclic chain kpi) raises)
    (screenings : Option ScreeningRegistry) (document : Text) :
    .cyclic chain kpi ∈ (ofDocument resolver screenings config document).events ↔
      ∃ reference ∈ references config document, raises reference := by
  rw [ofDocument, references]
  cases Block.locate config.startPhrase (Block.mendPhrase document) with
  | formula raw =>
      exact cyclic_mem_events_ofInlined.trans (Stage.cyclic_mem_events_inline h _)
  | noPhrase =>
      constructor
      · intro hmem
        cases hmem
      · rintro ⟨_, hmem, -⟩
        cases hmem
  | flawed flaw =>
      constructor
      · intro hmem
        cases List.mem_singleton.mp hmem
      · rintro ⟨_, hmem, -⟩
        cases hmem

end Run

end CounterFormula
