import CounterFormula.Proofs.Run.WellNested
import CounterFormula.Proofs.Token.Relaxed

/-!
# Run — Modes

When the mode of a run makes no difference.  The mode is asked for whenever a text is cut into
tokens, in the run itself and in every run inside it, and once more for what a bad character makes
of the run.  An observer's record is *spotless* when no bad character is on it, at any depth.

* `Run.ofInlined_relaxed`: the later passes of a spotless run in strict mode are those of the run in
  relaxed mode.
* `resolve_relaxed`: a reference whose run in strict mode is spotless is answered alike.
* `run_relaxed_eq`: so a spotless run in strict mode is the run in relaxed mode.
-/

namespace CounterFormula

/-- `config`, to read formulas in `mode`. -/
def Config.inMode (config : Config) (mode : Mode) : Config :=
  { config with mode := mode }

/-! ### Spotless records -/

/-- No bad character has been reported. -/
def Spotless (events : List Event) : Prop :=
  ∀ fault ∈ events.filterMap Event.fault?, fault.kind ≠ .lexical

theorem spotless_append {events more : List Event} :
    Spotless (events ++ more) ↔ Spotless events ∧ Spotless more := by
  rw [Spotless, List.filterMap_append, List.forall_mem_append]
  rfl

theorem spotless_map_fault {faults : List Fault} :
    Spotless (faults.map Event.fault) ↔ ∀ fault ∈ faults, fault.kind ≠ .lexical := by
  rw [Spotless, Event.filterMap_fault?]

theorem Spotless.of_mem_flatMap {runs : List Run} (h : Spotless (runs.flatMap Run.events))
    {run : Run} (hmem : run ∈ runs) : Spotless run.events := by
  intro fault hfault
  rw [Spotless, List.filterMap_flatMap] at h
  exact h fault (List.mem_flatMap_of_mem hmem hfault)

theorem Stage.spotless_events {stage : Stage} {number : Nat} (h : Spotless (stage.events number)) :
    Spotless stage.inner ∧ ∀ fault ∈ stage.faults, fault.kind ≠ .lexical := by
  rw [events, spotless_append, spotless_append, spotless_map_fault] at h
  exact h.1

/-! ### Passes -/

variable {registries : Registries} {config : Config} {chain : List Text}

namespace Stage

variable {raw : Text} {stage : Stage}

/-- A text on which nothing is reported is cut into the same tokens. -/
theorem reach_relaxed {number : Nat} {source : Text} {faults : List Fault}
    (h : ∀ fault ∈ (reach .strict number source faults).faults, fault.kind ≠ .lexical) :
    reach .relaxed number source faults = reach .strict number source faults := by
  have hread : (lex .strict source).faults = [] := by
    refine List.eq_nil_iff_forall_not_mem.mpr fun found hfound => ?_
    exact h (.lexical number found) (List.mem_append_right _ (List.mem_map_of_mem hfound)) rfl
  rw [reach, reach, lex_relaxed_of_faults hread]

theorem reachInlined_relaxed {source : Text} {log : Log}
    (h : ∀ fault ∈ (reachInlined (config.inMode .strict) source log).faults,
      fault.kind ≠ .lexical) :
    reachInlined (config.inMode .relaxed) source log =
      reachInlined (config.inMode .strict) source log :=
  congrArg (fun stage : Stage => { stage with inner := log.events }) (reach_relaxed h)

theorem clean_relaxed
    (h : ∀ fault ∈ (clean (config.inMode .strict) raw).faults, fault.kind ≠ .lexical) :
    clean (config.inMode .relaxed) raw = clean (config.inMode .strict) raw :=
  reach_relaxed h

theorem assign_relaxed {table : List Assignment} {faults : List AssignmentFault}
    (h : ∀ fault ∈ (stage.assign (config.inMode .strict) table faults).faults,
      fault.kind ≠ .lexical) :
    stage.assign (config.inMode .relaxed) table faults =
      stage.assign (config.inMode .strict) table faults :=
  reach_relaxed h

/-- Screenings are looked up in either mode. -/
theorem expandAll_inMode (config : Config) (mode : Mode) (screenings : Option ScreeningRegistry)
    (source : Text) (tokens : List Token) :
    Summation.expandAll (config.inMode mode) screenings source tokens =
      Summation.expandAll config screenings source tokens := by
  induction tokens with
  | nil => rfl
  | cons token rest ih =>
      rw [Summation.expandAll, Summation.expandAll, ih]
      rfl

theorem sum_relaxed {screenings : Option ScreeningRegistry}
    (h : ∀ fault ∈ (stage.sum (config.inMode .strict) screenings).faults, fault.kind ≠ .lexical) :
    stage.sum (config.inMode .relaxed) screenings =
      stage.sum (config.inMode .strict) screenings := by
  rw [sum, expandAll_inMode] at h ⊢
  rw [sum, expandAll_inMode]
  exact reach_relaxed h

end Stage

/-- Only a bad character is taken more lightly. -/
theorem Fault.severity_relaxed {fault : Fault} (h : fault.kind ≠ .lexical) :
    fault.severity .relaxed = fault.severity .strict := by
  rw [severity, severity]
  cases hkind : fault.kind with
  | lexical => exact absurd hkind h
  | structural | reference | var | summation => rfl

/-- **The later passes** of a spotless run in strict mode are those of the run in relaxed mode. -/
theorem Run.ofInlined_relaxed {screenings : Option ScreeningRegistry} {raw : Text}
    {cleaned inlined : Stage}
    (h : Spotless (ofInlined screenings (config.inMode .strict) raw cleaned inlined).events) :
    ofInlined screenings (config.inMode .relaxed) raw cleaned inlined =
      ofInlined screenings (config.inMode .strict) raw cleaned inlined := by
  simp only [ofInlined_eq, spotless_append, spotless_map_fault] at h
  obtain ⟨⟨⟨⟨hcleaned, hinlined⟩, hsubstituted⟩, hexpanded⟩, hundefined⟩ := h
  have hassign := Stage.assign_relaxed (Stage.spotless_events hsubstituted).2
  have hsum := Stage.sum_relaxed (Stage.spotless_events hexpanded).2
  simp only [ofInlined_eq, hassign, hsum, Run.mk.injEq, Outcome.mk.injEq, true_and, and_true]
  refine congrArg Severity.worst (List.map_congr_left fun fault hfault => ?_)
  refine Fault.severity_relaxed ?_
  simp only [List.mem_append, or_assoc] at hfault
  rcases hfault with hfault | hfault | hfault | hfault | hfault
  · exact (Stage.spotless_events hcleaned).2 fault hfault
  · exact (Stage.spotless_events hinlined).2 fault hfault
  · exact (Stage.spotless_events hsubstituted).2 fault hfault
  · exact (Stage.spotless_events hexpanded).2 fault hfault
  · exact hundefined fault hfault

/-! ### References -/

/-- Resolvers that answer the well-formed ones of `occurrences` alike, and report alike. -/
theorem Reference.answers_congr {σ : Type} {resolver other : Resolver σ}
    (hreport : resolver.report = other.report) {occurrences : List Occurrence}
    (h : ∀ site ∈ occurrences.filterMap Occurrence.site?,
      resolver.resolve site.1 = other.resolve site.1) (state : σ) :
    answers resolver occurrences state = answers other occurrences state := by
  induction occurrences with
  | nil => rfl
  | cons occurrence rest ih =>
      cases occurrence with
      | wellFormed reference span =>
          obtain ⟨hfirst, hmore⟩ := List.forall_mem_cons.mp h
          rw [answers_wellFormed, answers_wellFormed, ih hmore, hfirst]
      | malformed fault span => rw [answers_malformed, answers_malformed, ih h, hreport]

/-- The run made for `reference` in strict mode, if there is one, is spotless. -/
def SpotlessFor (registries : Registries) (config : Config) (chain : List Text)
    (reference : Reference) : Prop :=
  ∀ run, Request.run? registries (config.inMode .strict) ⟨chain, reference⟩ = some run →
    Spotless run.events

/-- Pass 1 of a spotless run in strict mode is that of the run in relaxed mode, when references are
answered alike. -/
theorem Stage.inline_relaxed {stage : Stage}
    (hresolve : ∀ reference, SpotlessFor registries config chain reference →
      resolve registries (config.inMode .relaxed) chain reference =
        resolve registries (config.inMode .strict) chain reference)
    (h : Spotless ((stage.inline (config.inMode .strict)
      (resolver registries (config.inMode .strict) chain)).events 1)) :
    stage.inline (config.inMode .relaxed) (resolver registries (config.inMode .relaxed) chain) =
      stage.inline (config.inMode .strict) (resolver registries (config.inMode .strict) chain) := by
  obtain ⟨hinner, hfaults⟩ := spotless_events h
  rw [inner_inline] at hinner
  rw [inline] at hfaults
  rw [inline, inline]
  by_cases hmention : Reference.mentionedIn stage.source = true
  · rw [if_pos hmention] at hfaults
    rw [if_pos hmention, if_pos hmention]
    have hanswers : Reference.answers (resolver registries (config.inMode .relaxed) chain)
        (Reference.occurrences stage.tokens) .empty =
          Reference.answers (resolver registries (config.inMode .strict) chain)
            (Reference.occurrences stage.tokens) .empty := by
      have hreport : (resolver registries (config.inMode .relaxed) chain).report =
          (resolver registries (config.inMode .strict) chain).report := rfl
      refine Reference.answers_congr hreport (fun site hsite => ?_) Log.empty
      refine hresolve site.1 fun run hrun => hinner.of_mem_flatMap ?_
      refine List.mem_filterMap.mpr ⟨⟨chain, site.1⟩, List.mem_map_of_mem ?_, hrun⟩
      rw [references, if_pos hmention]
      exact List.mem_reverse.mpr (List.mem_map_of_mem hsite)
    rw [Reference.substitute_eq_spliceAll] at hfaults
    rw [Reference.substitute_eq_spliceAll, Reference.substitute_eq_spliceAll, hanswers]
    exact reachInlined_relaxed hfaults
  · rw [if_neg hmention, if_neg hmention]

/-! ### Runs -/

/-- **One run.**  A spotless run in strict mode is the run in relaxed mode, when references are
answered alike. -/
theorem runUnder_relaxed {document : Text}
    (hresolve : ∀ reference, SpotlessFor registries config chain reference →
      resolve registries (config.inMode .relaxed) chain reference =
        resolve registries (config.inMode .strict) chain reference)
    (h : Spotless (runUnder registries (config.inMode .strict) chain document).events) :
    runUnder registries (config.inMode .relaxed) chain document =
      runUnder registries (config.inMode .strict) chain document := by
  have hphrase (mode : Mode) : (config.inMode mode).startPhrase = config.startPhrase := rfl
  rw [runUnder, Run.ofDocument, hphrase] at h
  rw [runUnder, Run.ofDocument, runUnder, Run.ofDocument, hphrase, hphrase]
  cases hlocate : Block.locate config.startPhrase (Block.mendPhrase document) with
  | noPhrase => rfl
  | flawed flaw => rfl
  | formula raw =>
      rw [hlocate] at h
      have hevents := h
      simp only [Run.ofFormula, Run.ofInlined_eq, spotless_append] at hevents
      obtain ⟨⟨⟨⟨hcleaned, hinlined⟩, -⟩, -⟩, -⟩ := hevents
      dsimp only [Run.ofFormula]
      rw [Stage.clean_relaxed (Stage.spotless_events hcleaned).2,
        Stage.inline_relaxed hresolve hinlined]
      exact Run.ofInlined_relaxed h

/-- **A reference** whose run in strict mode is spotless is answered alike in relaxed mode. -/
theorem resolve_relaxed {reference : Reference}
    (h : SpotlessFor registries config chain reference) :
    resolve registries (config.inMode .relaxed) chain reference =
      resolve registries (config.inMode .strict) chain reference := by
  induction chain using registries.chain_induction generalizing config reference with
  | extend chain ih =>
      funext log
      by_cases hmem : reference.kpi ∈ chain
      · rw [resolve_of_mem _ log hmem, resolve_of_mem _ log hmem]
      cases hlookup : registries.lookupKpi reference.kpi with
      | none =>
          rw [resolve_of_lookupKpi_eq_none _ log hmem hlookup,
            resolve_of_lookupKpi_eq_none _ log hmem hlookup]
      | some document =>
          have hmade : Request.run? registries (config.inMode .strict) ⟨chain, reference⟩ =
              some (runUnder registries (config.nested.inMode .strict) (chain ++ [reference.kpi])
                document) := Request.run?_of_lookupKpi hmem hlookup
          have hrun := runUnder_relaxed (fun _ => ih _ document hmem hlookup) (h _ hmade)
          rw [resolve_of_lookupKpi _ log hmem hlookup, resolve_of_lookupKpi _ log hmem hlookup]
          exact congrArg (fun run => run.answer reference log) hrun

/-- **Spotless runs.**  When a run in strict mode shows no bad character, itself or in any run
inside it, the run in relaxed mode is the same: it has the same outcome, and shows the same. -/
theorem run_relaxed_eq (registries : Registries) (config : Config) (document : Text)
    (h : ∀ fault ∈ (run registries (config.inMode .strict) document).reported,
      fault.kind ≠ .lexical) :
    run registries (config.inMode .relaxed) document =
      run registries (config.inMode .strict) document :=
  runUnder_relaxed (fun _ hreference => resolve_relaxed hreference) h

/-- The formula of `K` asks for an unknown sum, and the formula that refers to it assigns a variable
twice: both are reported, and neither is a bad character. -/
theorem run_relaxed_eq_of_faulty :
    let registries : Registries :=
      { kpis := some ⟨[(['K'], "eNB Counter Method: BEGIN ~A(0)+1 END".toList)]⟩
        screenings := none }
    let document :=
      "eNB Counter Method: BEGIN (Formula://EnbCounterMethod/K)*$x $x=2 $x=3 END".toList
    let strict := run registries (Config.default.inMode .strict) document
    (∀ fault ∈ strict.reported, fault.kind ≠ .lexical) ∧
      strict.reported = [.summation .noRegistry, .reference (.faulty ['K']),
        .assignment (.redefined "$x".toList)] ∧
      run registries (Config.default.inMode .relaxed) document = strict := by
  intro registries document strict
  have hreported : strict.reported = [.summation .noRegistry, .reference (.faulty ['K']),
      .assignment (.redefined "$x".toList)] := by decide +kernel
  have hspotless : ∀ fault ∈ strict.reported, fault.kind ≠ .lexical := by
    rw [hreported]
    decide
  exact ⟨hspotless, hreported, run_relaxed_eq registries .default document hspotless⟩

end CounterFormula
