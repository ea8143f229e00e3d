import CounterFormula.Proofs.Run.Colons
import CounterFormula.Proofs.Run.WellNested

/-!
# Run — Propagation

What becomes of the faults of the runs inside a run.  A run lists its own faults only; of the run
made for a reference it keeps no more than that something was wrong with it.  A request *fails* when
it is not answered by the text of a formula without a fault: its KPI is being resolved already, is
not registered, has a document without a formula, or has one whose run has met a fault.

* `faults_resolve_eq_nil_iff`: a reference leads to no fault just when no request made for it, at
  any depth, fails.
* `exists_reference_mem_faults_run`: a run in which a request fails lists a fault of a reference.
-/

namespace CounterFormula

/-- The request is not answered by the text of a formula without a fault. -/
inductive Request.Fails (registries : Registries) (config : Config) (request : Request) : Prop where
  | cyclic (hchain : request.reference.kpi ∈ request.chain)
  | unknown (hlookup : registries.lookupKpi request.reference.kpi = none)
  /-- The document of the KPI has no start phrase, or no whole block behind it. -/
  | unusable {document : Text}
      (hlookup : registries.lookupKpi request.reference.kpi = some document)
      (hblock : ∀ raw,
        Block.locate config.nested.startPhrase (Block.mendPhrase document) ≠ .formula raw)
  | faulty {run : Run} (hrun : request.run? registries config = some run)
      (hfaults : run.outcome.faults ≠ [])

variable {registries : Registries} {config : Config} {chain : List Text} {reference : Reference}
  {document : Text}

/-! ### One request -/

/-- Inside a run nothing is configured anew. -/
theorem Request.Fails.nested {request : Request} (h : request.Fails registries config) :
    request.Fails registries config.nested := by
  cases h with
  | cyclic hchain => exact .cyclic hchain
  | unknown hlookup => exact .unknown hlookup
  | unusable hlookup hblock => exact .unusable hlookup hblock
  | faulty hrun hfaults => exact .faulty hrun hfaults

/-- What can go wrong with a request for a KPI that has a document and is not being resolved. -/
theorem Request.fails_iff (hnew : reference.kpi ∉ chain)
    (hlookup : registries.lookupKpi reference.kpi = some document) :
    Fails registries config ⟨chain, reference⟩ ↔
      (∀ raw, Block.locate config.nested.startPhrase (Block.mendPhrase document) ≠ .formula raw) ∨
        (runUnder registries config.nested (chain ++ [reference.kpi])
          document).outcome.faults ≠ [] := by
  have hrun : run? registries config ⟨chain, reference⟩ = _ := run?_of_lookupKpi hnew hlookup
  constructor
  · intro h
    cases h with
    | cyclic hchain => exact absurd hchain hnew
    | unknown hnone =>
        rw [hlookup] at hnone
        cases hnone
    | unusable hdocument hblock =>
        obtain rfl := Option.some.inj (hlookup.symm.trans hdocument)
        exact .inl hblock
    | faulty hmade hfaults =>
        obtain rfl := Option.some.inj (hrun.symm.trans hmade)
        exact .inr hfaults
  · rintro (hblock | hfaults)
    · exact .unusable hlookup hblock
    · exact .faulty hrun hfaults

/-- A run answers without a fault just when it has found a formula and met no fault. -/
theorem Run.faults_answer_eq_nil_iff {run : Run} :
    (run.answer reference .empty).2.faults = [] ↔
      run.outcome.raw ≠ [] ∧ run.outcome.faults = [] := by
  constructor
  · intro h
    obtain ⟨hraw, hfaultless, -⟩ := answer_faultless h
    exact ⟨hraw, hfaultless⟩
  · rintro ⟨hraw, hfaultless⟩
    rw [answer_of_raw_ne_nil hraw, if_pos hfaultless]
    rfl

/-- A reference leads to no fault just when the request for it does not fail. -/
theorem Request.faults_resolve_eq_nil_iff :
    (resolve registries config chain reference .empty).2.faults = [] ↔
      ¬ Fails registries config ⟨chain, reference⟩ := by
  by_cases hmem : reference.kpi ∈ chain
  · rw [resolve_of_mem config .empty hmem]
    exact ⟨nofun, fun h => absurd (.cyclic hmem) h⟩
  cases hlookup : registries.lookupKpi reference.kpi with
  | none =>
      rw [resolve_of_lookupKpi_eq_none config .empty hmem hlookup]
      exact ⟨nofun, fun h => absurd (.unknown hlookup) h⟩
  | some document =>
      rw [resolve_of_lookupKpi config .empty hmem hlookup, Run.faults_answer_eq_nil_iff,
        fails_iff hmem hlookup, not_or, not_not]
      refine and_congr_left fun _ => ⟨?_, ?_⟩
      · intro hraw hblock
        obtain ⟨raw, hlocate, -⟩ := Run.exists_ofFormula hraw
        exact hblock raw hlocate
      · intro hblock
        obtain ⟨raw, hlocate⟩ := not_forall_not.mp hblock
        rw [Outcome.raw, Run.block_ofDocument, hlocate]
        exact Block.ne_nil_of_locate hlocate

/-! ### Every depth -/

/-- The requests for the references of a run that lists no fault of a reference lead to none. -/
theorem faults_resolve_of_references
    (h : (runUnder registries config chain document).outcome.faults.filterMap Fault.reference? = [])
    (hmem : reference ∈ Run.references config document) :
    (resolve registries config chain reference .empty).2.faults = [] := by
  rw [runUnder, Run.ofDocument] at h
  rw [Run.references] at hmem
  cases hlocate : Block.locate config.startPhrase (Block.mendPhrase document) with
  | noPhrase =>
      rw [hlocate] at hmem
      cases hmem
  | flawed flaw =>
      rw [hlocate] at hmem
      cases hmem
  | formula raw =>
      rw [hlocate] at h hmem
      exact Run.faultless_of_reference? h hmem

/-- **A reference leads to no fault** just when no request made for it, at any depth, fails. -/
theorem faults_resolve_eq_nil_iff :
    (resolve registries config chain reference .empty).2.faults = [] ↔
      ∀ request ∈ requestsFor registries config chain reference,
        ¬ request.Fails registries config := by
  induction chain using registries.chain_induction generalizing config reference with
  | extend chain ih =>
      cases hrun : Request.run? registries config ⟨chain, reference⟩ with
      | none =>
          rw [requestsFor_of_run?_eq_none hrun, List.forall_mem_singleton]
          exact Request.faults_resolve_eq_nil_iff
      | some run =>
          obtain ⟨hnew, document, hlookup, rfl⟩ := Request.exists_of_run? hrun
          rw [Request.faults_resolve_eq_nil_iff, requestsFor_of_lookupKpi hnew hlookup,
            List.forall_mem_append, List.forall_mem_singleton]
          refine ⟨fun h => ⟨?_, h⟩, fun h => h.2⟩
          -- the run made for the reference lists no fault, so neither do the runs inside it
          rw [Request.fails_iff hnew hlookup, not_or, not_not] at h
          intro request hrequest
          obtain ⟨inner, hinner, hrequest⟩ := mem_requestsUnder.mp hrequest
          have hfaultless := faults_resolve_of_references
            (congrArg (List.filterMap Fault.reference?) h.2) hinner
          exact fun hfails =>
            (ih _ document hnew hlookup).mp hfaultless request hrequest hfails.nested

/-- **No fault of a run inside is lost.**  If, at any depth below a run, a request is made for a KPI
that is being resolved already, that is not registered or whose document has no formula, or if a
run made for one meets a fault, then the run lists a fault of a reference, and is no better than a
warning. -/
theorem exists_reference_mem_faults_run (registries : Registries) (config : Config)
    (document : Text)
    (h : ∃ request ∈ requestsUnder registries config [] document,
      request.Fails registries config) :
    let outcome := (run registries config document).outcome
    (∃ fault, .reference fault ∈ outcome.faults) ∧ .warning ≤ outcome.severity := by
  intro outcome
  obtain ⟨request, hrequest, hfails⟩ := h
  obtain ⟨reference, hreference, hrequest⟩ := mem_requestsUnder.mp hrequest
  have hlisted : outcome.faults.filterMap Fault.reference? ≠ [] := fun hnil =>
    faults_resolve_eq_nil_iff.mp (faults_resolve_of_references hnil hreference) request hrequest
      hfails
  obtain ⟨fault, hfault⟩ := List.exists_mem_of_ne_nil _ hlisted
  obtain ⟨found, hfound, hmade⟩ := List.mem_filterMap.mp hfault
  obtain rfl : found = .reference fault := by
    cases found <;> cases hmade
    rfl
  refine ⟨⟨fault, hfound⟩, ?_⟩
  have hseverity : outcome.severity =
      Severity.worst (outcome.faults.map (Fault.severity config.mode)) :=
    Run.severity_ofDocument _ _ _ _
  have hworst := (Severity.isGreatest_worst (List.ne_nil_of_mem
    (List.mem_map_of_mem hfound : Fault.severity config.mode _ ∈ _))).2
    (List.mem_map_of_mem hfound)
  rw [hseverity]
  exact Severity.le_trans (Fault.warning_le_severity config.mode _) hworst

/-- The formula refers to `K`, whose formula refers to `L`, whose document has no start phrase; the
run made for `L` shows nothing. -/
theorem exists_reference_mem_faults_run_of_no_phrase :
    let registries : Registries :=
      { kpis := some ⟨[
          (['K'], "eNB Counter Method: BEGIN 1+(Formula://EnbCounterMethod/L) END".toList),
          (['L'], "BEGIN 2 END".toList)]⟩
        screenings := none }
    let document := "eNB Counter Method: BEGIN 3*(Formula://EnbCounterMethod/K) END".toList
    let inner : Request := ⟨[['K']], ⟨['L'], none⟩⟩
    let outcome := (run registries .default document).outcome
    inner ∈ requestsUnder registries .default [] document ∧
      inner.Fails registries .default ∧
      (inner.run? registries .default).map Run.events = some [] ∧
      outcome.faults = [.reference (.faulty ['K'])] ∧
      (∃ fault, .reference fault ∈ outcome.faults) ∧ .warning ≤ outcome.severity := by
  intro registries document inner outcome
  have hinner : inner ∈ requestsUnder registries .default [] document := by
    refine mem_requestsUnder.mpr ⟨⟨['K'], none⟩, by decide +kernel, ?_⟩
    rw [requestsFor_of_lookupKpi (by decide) rfl]
    refine List.mem_append_left _ (mem_requestsUnder.mpr ⟨⟨['L'], none⟩, by decide +kernel, ?_⟩)
    exact mem_requestsFor
  have hfails : inner.Fails registries .default := by
    have hlocate : Block.locate Config.default.nested.startPhrase
        (Block.mendPhrase "BEGIN 2 END".toList) = .noPhrase := by decide +kernel
    refine .unusable rfl fun raw hraw => ?_
    rw [hlocate] at hraw
    cases hraw
  exact ⟨hinner, hfails, by decide +kernel, by decide +kernel,
    exists_reference_mem_faults_run registries .default document ⟨inner, hinner, hfails⟩⟩

end CounterFormula
