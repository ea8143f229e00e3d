import CounterFormula.Proofs.Reference.StandIn
import CounterFormula.Proofs.Run.Propagation

/-!
# Run — Unmet

Requests for which there is no text: the KPI is being resolved already or is not registered, its
document has no formula, or its formula does not define the variable that is asked for.  A text
stands in for the one that is missing: the placeholder of the reference when there is no formula,
and the marker of the variable when only that is missing.  The placeholder always comes with a
fault.  The marker comes with one only when the run over the formula has met a fault of its own.

* `Request.Unmet.resolve_cases`: the two answers to an unmet request.
* `reported_iff_of_unmet`: an unmet request is reported unless the formula of its KPI is without a
  fault.
* `readsAsSymbol_resolve_iff`: what stands in for the text reads as one symbol, but for the
  placeholder of an id that carries no symbol on.
-/

namespace CounterFormula

/-- The text that is asked for is not there. -/
inductive Request.Unmet (registries : Registries) (config : Config) (request : Request) : Prop where
  | cyclic (hchain : request.reference.kpi ∈ request.chain)
  | unknown (hlookup : registries.lookupKpi request.reference.kpi = none)
  /-- The document of the KPI has no start phrase, or no whole block behind it. -/
  | unusable {document : Text}
      (hlookup : registries.lookupKpi request.reference.kpi = some document)
      (hblock : ∀ raw,
        Block.locate config.nested.startPhrase (Block.mendPhrase document) ≠ .formula raw)
  /-- The formula of the KPI does not define the variable. -/
  | undefined {run : Run} {name : Text} (hrun : request.run? registries config = some run)
      (hwanted : request.reference.wanted = some name)
      (hundefined : ∀ assignment ∈ run.outcome.table, assignment.name.text ≠ name)

variable {registries : Registries} {config : Config} {chain : List Text} {reference : Reference}
  {name : Text}

/-! ### The value of a variable -/

/-- The values of a run are those of its assignments. -/
theorem Run.fst_values (resolver : Reference.Resolver Log) (screenings : Option ScreeningRegistry)
    (config : Config) (document : Text) :
    let outcome := (ofDocument resolver screenings config document).outcome
    outcome.values.map Prod.fst = outcome.table.map fun assignment => assignment.name.text := by
  intro outcome
  cases hlocate : Block.locate config.startPhrase (Block.mendPhrase document) with
  | noPhrase | flawed _ =>
      simp only [outcome, ofDocument, hlocate]
      rfl
  | formula raw =>
      simp only [outcome, ofDocument, hlocate, ofFormula]
      rw [values_ofInlined]
      exact List.map_map

theorem Assignment.sourceOf_of_not_mem {values : List (Text × Text)}
    (h : name ∉ values.map Prod.fst) : sourceOf values name = missing name := by
  have hnone : values.lookup name = none := by
    refine List.lookup_eq_none_iff.mpr fun value hvalue => ?_
    refine bne_iff_ne.mpr fun heq => h ?_
    rw [heq]
    exact List.mem_map_of_mem hvalue
  rw [sourceOf, resolved?, hnone]
  rfl

/-- For a variable that is not defined a run gives the marker. -/
theorem Run.textFor_of_undefined {document : Text} (hwanted : reference.wanted = some name)
    (hundefined : ∀ assignment ∈ (runUnder registries config chain document).outcome.table,
      assignment.name.text ≠ name) :
    (runUnder registries config chain document).textFor reference = Assignment.missing name := by
  rw [textFor, hwanted]
  refine Assignment.sourceOf_of_not_mem fun hmem => ?_
  rw [runUnder, fst_values] at hmem
  obtain ⟨assignment, hassignment, hname⟩ := List.mem_map.mp hmem
  exact hundefined assignment hassignment hname

/-! ### The answer to an unmet request -/

namespace Request

/-- **Where there is a formula**, only a variable can be missing, and its marker is given. -/
theorem Unmet.eq_missing {run : Run} (h : Unmet registries config ⟨chain, reference⟩)
    (hrun : run? registries config ⟨chain, reference⟩ = some run) (hraw : run.outcome.raw ≠ []) :
    ∃ name, reference.wanted = some name ∧ run.textFor reference = Assignment.missing name := by
  obtain ⟨hnew, document, hlookup, rfl⟩ := exists_of_run? hrun
  cases h with
  | cyclic hchain => exact absurd hchain hnew
  | unknown hnone => cases hlookup.symm.trans hnone
  | unusable hdocument hblock =>
      obtain rfl := Option.some.inj (hlookup.symm.trans hdocument)
      obtain ⟨raw, hlocate, -⟩ := Run.exists_ofFormula hraw
      exact absurd hlocate (hblock raw)
  | @undefined run name hmade hwanted hundefined =>
      obtain rfl := Option.some.inj (hrun.symm.trans hmade)
      exact ⟨name, hwanted, Run.textFor_of_undefined hwanted hundefined⟩

/-- **An unmet request** is answered by the placeholder, and reported, when there is no formula;
otherwise by the marker of its variable, and reported only when the run has met a fault. -/
theorem Unmet.resolve_cases (h : Unmet registries config ⟨chain, reference⟩) (log : Log) :
    (∃ fault events,
      resolve registries config chain reference log =
          (reference.placeholder, (log.watch events).report fault) ∧
        ∀ run, run? registries config ⟨chain, reference⟩ = some run → run.outcome.raw = []) ∨
    ∃ run name, run? registries config ⟨chain, reference⟩ = some run ∧ run.outcome.raw ≠ [] ∧
      reference.wanted = some name ∧
        resolve registries config chain reference log =
          (Assignment.missing name,
            if run.outcome.faults = [] then log.watch run.events
            else (log.watch run.events).report (.faulty reference.kpi)) := by
  cases hrun : run? registries config ⟨chain, reference⟩ with
  | none =>
      obtain ⟨fault, hresolve⟩ := resolve_of_run?_eq_none hrun log
      refine .inl ⟨fault, [], hresolve.trans ?_, nofun⟩
      rw [Log.watch, List.append_nil]
  | some run =>
      rw [resolve_of_run? hrun]
      by_cases hraw : run.outcome.raw = []
      · rw [Run.answer_of_raw_eq_nil hraw]
        refine .inl ⟨_, _, rfl, fun run' hrun' => ?_⟩
        obtain rfl := Option.some.inj hrun'
        exact hraw
      · obtain ⟨name, hwanted, htext⟩ := h.eq_missing hrun hraw
        rw [Run.answer_of_raw_ne_nil hraw, htext]
        exact .inr ⟨run, name, rfl, hraw, hwanted, rfl⟩

end Request

/-! ### Whether it is reported -/

/-- **Reporting what is missing.**  An unmet request is reported, by one fault of a reference, just
when there is no formula or the run over the formula has met a fault.  Where that run has met none,
the marker of the variable is all that is given. -/
theorem reported_iff_of_unmet (hunmet : Request.Unmet registries config ⟨chain, reference⟩)
    (log : Log) :
    let answered := resolve registries config chain reference log
    ((∃ fault, answered.2.faults = log.faults ++ [fault]) ↔
      ∀ run, Request.run? registries config ⟨chain, reference⟩ = some run →
        run.outcome.raw ≠ [] → run.outcome.faults ≠ []) ∧
    ∀ run, Request.run? registries config ⟨chain, reference⟩ = some run →
      run.outcome.raw ≠ [] → run.outcome.faults = [] →
        ∃ name, reference.wanted = some name ∧
          answered = (Assignment.missing name, log.watch run.events) := by
  intro answered
  rcases hunmet.resolve_cases log with
    ⟨fault, events, hresolve, hnone⟩ | ⟨run, name, hrun, hraw, hwanted, hresolve⟩
  · -- the placeholder always comes with a fault
    refine ⟨iff_of_true ⟨fault, congrArg (fun answered => answered.2.faults) hresolve⟩ ?_, ?_⟩
    · intro run hrun hraw
      exact absurd (hnone run hrun) hraw
    · intro run hrun hraw
      exact absurd (hnone run hrun) hraw
  · have hanswered : answered = _ := hresolve
    by_cases hfaults : run.outcome.faults = []
    · rw [if_pos hfaults] at hanswered
      refine ⟨iff_of_false ?_ fun h => h run hrun hraw hfaults, ?_⟩
      · rintro ⟨fault, hfault⟩
        rw [hanswered] at hfault
        exact List.cons_ne_nil _ _ (List.self_eq_append_right.mp hfault)
      · intro run' hrun' _ _
        obtain rfl := Option.some.inj (hrun.symm.trans hrun')
        exact ⟨name, hwanted, hanswered⟩
    · rw [if_neg hfaults] at hanswered
      have honly : ∀ run', Request.run? registries config ⟨chain, reference⟩ = some run' →
          run'.outcome.faults ≠ [] := by
        intro run' hrun'
        obtain rfl := Option.some.inj (hrun.symm.trans hrun')
        exact hfaults
      refine ⟨iff_of_true ⟨.faulty reference.kpi, ?_⟩ fun run' hrun' _ => honly run' hrun', ?_⟩
      · rw [hanswered]
        rfl
      · intro run' hrun' _ hnil
        exact absurd hnil (honly run' hrun')

/-- The variable that is asked for is missing, and so is another one that the formula needs. -/
theorem reported_iff_of_unmet_of_leftover :
    let registries : Registries :=
      { kpis := some ⟨[(['K'], "eNB Counter Method: BEGIN A+$w END".toList)]⟩, screenings := none }
    let reference : Reference := ⟨['K'], some "$v".toList⟩
    Request.Unmet registries .default ⟨[], reference⟩ ∧
      ∃ fault, (resolve registries .default [] reference .empty).2.faults = [fault] := by
  intro registries reference
  let inner := runUnder registries Config.default.nested [['K']]
    "eNB Counter Method: BEGIN A+$w END".toList
  have hrun : Request.run? registries .default ⟨[], reference⟩ = some inner :=
    Request.run?_of_lookupKpi List.not_mem_nil rfl
  obtain ⟨htable, hfaults⟩ : inner.outcome.table = [] ∧ inner.outcome.faults ≠ [] := by
    decide +kernel
  have hunmet : Request.Unmet registries .default ⟨[], reference⟩ := by
    refine .undefined hrun rfl ?_
    rw [htable]
    exact List.forall_mem_nil _
  refine ⟨hunmet, (reported_iff_of_unmet hunmet .empty).1.mpr fun run' hrun' _ => ?_⟩
  obtain rfl := Option.some.inj (hrun.symm.trans hrun')
  exact hfaults

/-- Only the variable is missing: its marker is spliced into the formula, and the run over that one
finds nothing amiss. -/
theorem unreported_of_undefined :
    let registries : Registries :=
      { kpis := some ⟨[(['K'], "eNB Counter Method: BEGIN A END".toList)]⟩, screenings := none }
    let reference : Reference := ⟨['K'], some "$v".toList⟩
    let answered := resolve registries .default [] reference .empty
    let outcome := (run registries .default
      "eNB Counter Method: BEGIN 2*(Formula://EnbCounterMethod/K/$v) END".toList).outcome
    Request.Unmet registries .default ⟨[], reference⟩ ∧
      answered.1 = "ERROR_Variable_NotFound_$v".toList ∧ answered.2.faults = [] ∧
      outcome.expanded = "2*(ERROR_Variable_NotFound_$v)".toList ∧ outcome.faults = [] := by
  intro registries reference answered outcome
  let inner := runUnder registries Config.default.nested [['K']]
    "eNB Counter Method: BEGIN A END".toList
  have hrun : Request.run? registries .default ⟨[], reference⟩ = some inner :=
    Request.run?_of_lookupKpi List.not_mem_nil rfl
  have htable : inner.outcome.table = [] := by decide +kernel
  have hunmet : Request.Unmet registries .default ⟨[], reference⟩ := by
    refine .undefined hrun rfl ?_
    rw [htable]
    exact List.forall_mem_nil _
  refine ⟨hunmet, ?_⟩
  decide +kernel

/-! ### How it reads -/

/-- **Reading what stands in.**  An unmet request for a reference of a formula is answered by the
placeholder of the reference or by the marker of its variable.  Either reads as one symbol, without
a fault, but for the placeholder of an id that begins with a character that carries no symbol on. -/
theorem readsAsSymbol_resolve_iff {mode : Mode} {source : Text} {span : Span}
    (hsite : (reference, span) ∈ Reference.sites (lex mode source).body)
    (hunmet : Request.Unmet registries config ⟨chain, reference⟩) (log : Log) :
    let text := (resolve registries config chain reference log).1
    (text = reference.placeholder ∨
      ∃ name, reference.wanted = some name ∧ text = Assignment.missing name) ∧
    (ReadsAsSymbol text ↔ ¬ (text = reference.placeholder ∧ reference.kpi.head? = some '@')) := by
  intro text
  have hwritten := Reference.written_of_mem_sites hsite
  have hplaceholder := Reference.readsAsSymbol_placeholder_iff hwritten
  have hstands : text = reference.placeholder ∨
      ∃ name, reference.wanted = some name ∧ text = Assignment.missing name := by
    rcases hunmet.resolve_cases log with
      ⟨fault, events, hresolve, -⟩ | ⟨run, name, -, -, hwanted, hresolve⟩
    · exact .inl (congrArg Prod.fst hresolve)
    · exact .inr ⟨name, hwanted, congrArg Prod.fst hresolve⟩
  refine ⟨hstands, fun h => ?_, fun h => ?_⟩
  · rintro ⟨htext, hhead⟩
    rw [htext] at h
    exact hplaceholder.mp h hhead
  · rcases hstands with htext | ⟨name, hwanted, htext⟩
    · have hsymbol := hplaceholder.mpr fun hhead => h ⟨htext, hhead⟩
      rwa [← htext] at hsymbol
    · have hsymbol := Reference.readsAsSymbol_missing (hwritten.wanted name hwanted)
      rwa [← htext] at hsymbol

/-- An id with all that symbols are carried on with, and a variable of it. -/
theorem readsAsSymbol_resolve_iff_of_unknown :
    let source : Text := "2*(Formula://EnbCounterMethod/_K.1$/$v_2)".toList
    let reference : Reference := ⟨"_K.1$".toList, some "$v_2".toList⟩
    let registries : Registries := { kpis := none, screenings := none }
    let text := (resolve registries .default [] reference .empty).1
    (reference, ⟨3, 39⟩) ∈ Reference.sites (lex .strict source).body ∧
      Request.Unmet registries .default ⟨[], reference⟩ ∧
      text = "Formula_for_KPI__K.1$_$v_2".toList ∧ ReadsAsSymbol text := by
  intro source reference registries text
  have hsite : (reference, ⟨3, 39⟩) ∈ Reference.sites (lex .strict source).body := by
    decide +kernel
  have hunmet : Request.Unmet registries .default ⟨[], reference⟩ := .unknown rfl
  refine ⟨hsite, hunmet, by decide +kernel, ?_⟩
  refine (readsAsSymbol_resolve_iff hsite hunmet .empty).2.mpr ?_
  rintro ⟨-, hhead⟩
  exact absurd hhead (by decide)

/-- The id begins with a character that carries no symbol on, so its placeholder breaks off there,
and the rest of it is an error. -/
theorem not_readsAsSymbol_of_at :
    let source : Text := "(Formula://EnbCounterMethod/@K)".toList
    let reference : Reference := ⟨"@K".toList, none⟩
    let registries : Registries := { kpis := none, screenings := none }
    let text := (resolve registries .default [] reference .empty).1
    (reference, ⟨1, 29⟩) ∈ Reference.sites (lex .strict source).body ∧
      Request.Unmet registries .default ⟨[], reference⟩ ∧
      (lex .strict text).body.map Token.spelling =
        [(.symbol, "Formula_for_KPI_".toList), (.error, "@K_".toList)] ∧
      ¬ ReadsAsSymbol text := by
  intro source reference registries text
  exact ⟨by decide +kernel, .unknown rfl, by decide +kernel, by decide +kernel⟩

end CounterFormula
