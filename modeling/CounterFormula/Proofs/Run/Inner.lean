import CounterFormula.Proofs.Run.References
import Mathlib.Data.List.Basic

/-!
# Run — Inner

The runs made inside a run.  A *request* is a reference together with the KPIs that are being
resolved when it is to be answered.  It is answered by a run over the document of its KPI, unless
the KPI is one of those or is not registered, and the references in that document make further
requests.  Pass 1 answers the references of a formula from the right.

* `Request.events_resolve`: resolving a reference adds to a log what the run made for it shows.
* `Stage.inner_inline`: pass 1 shows what the runs made for its references show, one run after the
  other.
-/

namespace CounterFormula

/-- The run over `document` while the KPIs on `chain` are being resolved. -/
def runUnder (registries : Registries) (config : Config) (chain : List Text) (document : Text) :
    Run :=
  Run.ofDocument (resolver registries config chain) registries.screenings config document

/-- A reference that is to be answered while the KPIs on `chain` are being resolved. -/
structure Request where
  chain : List Text
  reference : Reference
  deriving DecidableEq, Repr

/-- The requests that a formula makes while the KPIs on `chain` are being resolved, in the order in
which they are answered. -/
def Stage.requests (chain : List Text) (stage : Stage) : List Request :=
  stage.references.reverse.map (Request.mk chain)

/-- The requests that a run over `document` makes. -/
def Run.requests (config : Config) (chain : List Text) (document : Text) : List Request :=
  (references config document).reverse.map (Request.mk chain)

namespace Request

/-- The run made for a request; none for a KPI that is being resolved or that is not registered. -/
def run? (registries : Registries) (config : Config) (request : Request) : Option Run :=
  if request.reference.kpi ∈ request.chain then none
  else (registries.lookupKpi request.reference.kpi).map
    (runUnder registries config.nested (request.chain ++ [request.reference.kpi]))

end Request

/-- The requests that answering `reference` leads to, itself included, in the order in which they
are answered. -/
def requestsFor (registries : Registries) (config : Config) (chain : List Text)
    (reference : Reference) : List Request :=
  if _hchain : reference.kpi ∈ chain then [⟨chain, reference⟩]
  else
    match _hdoc : registries.lookupKpi reference.kpi with
    | none => [⟨chain, reference⟩]
    | some document =>
      ((Run.references config.nested document).reverse.flatMap fun inner =>
        requestsFor registries config.nested (chain ++ [reference.kpi]) inner) ++
          [⟨chain, reference⟩]
termination_by registries.pending chain
decreasing_by exact Registries.pending_lt_of_lookupKpi _hdoc _hchain

/-- The requests that a run over `document` leads to, at any depth. -/
def requestsUnder (registries : Registries) (config : Config) (chain : List Text)
    (document : Text) : List Request :=
  (Run.references config document).reverse.flatMap (requestsFor registries config chain)

variable {registries : Registries} {config : Config} {chain : List Text} {reference : Reference}

/-! ### The run made for a request -/

namespace Request

theorem run?_of_mem (h : reference.kpi ∈ chain) :
    run? registries config ⟨chain, reference⟩ = none :=
  if_pos h

theorem run?_of_lookupKpi_eq_none (hlookup : registries.lookupKpi reference.kpi = none) :
    run? registries config ⟨chain, reference⟩ = none := by
  rw [run?, hlookup, Option.map_none, ite_self]

theorem run?_of_lookupKpi {document : Text} (h : reference.kpi ∉ chain)
    (hlookup : registries.lookupKpi reference.kpi = some document) :
    run? registries config ⟨chain, reference⟩ =
      some (runUnder registries config.nested (chain ++ [reference.kpi]) document) := by
  rw [run?, if_neg h, hlookup, Option.map_some]

/-- The run made for a request is the one over the document of its KPI. -/
theorem exists_of_run? {run : Run} (hrun : run? registries config ⟨chain, reference⟩ = some run) :
    reference.kpi ∉ chain ∧ ∃ document, registries.lookupKpi reference.kpi = some document ∧
      run = runUnder registries config.nested (chain ++ [reference.kpi]) document := by
  by_cases hmem : reference.kpi ∈ chain
  · rw [run?_of_mem hmem] at hrun
    cases hrun
  cases hlookup : registries.lookupKpi reference.kpi with
  | none =>
      rw [run?_of_lookupKpi_eq_none hlookup] at hrun
      cases hrun
  | some document =>
      rw [run?_of_lookupKpi hmem hlookup] at hrun
      exact ⟨hmem, document, rfl, (Option.some.inj hrun).symm⟩

/-- A run made for a request answers it. -/
theorem resolve_of_run? {run : Run} (hrun : run? registries config ⟨chain, reference⟩ = some run)
    (log : Log) : resolve registries config chain reference log = run.answer reference log := by
  obtain ⟨hmem, document, hlookup, rfl⟩ := exists_of_run? hrun
  exact resolve_of_lookupKpi config log hmem hlookup

/-- Without a run, the request is answered by the fault that says why there is none. -/
theorem resolve_of_run?_eq_none (hrun : run? registries config ⟨chain, reference⟩ = none)
    (log : Log) :
    ∃ fault, resolve registries config chain reference log =
      (reference.placeholder, log.report fault) := by
  by_cases hmem : reference.kpi ∈ chain
  · exact ⟨_, resolve_of_mem config log hmem⟩
  cases hlookup : registries.lookupKpi reference.kpi with
  | none => exact ⟨_, resolve_of_lookupKpi_eq_none config log hmem hlookup⟩
  | some document =>
      rw [run?_of_lookupKpi hmem hlookup] at hrun
      cases hrun

end Request

/-! ### Requests within each other -/

theorem mem_requestsUnder {document : Text} {request : Request} :
    request ∈ requestsUnder registries config chain document ↔
      ∃ reference ∈ Run.references config document,
        request ∈ requestsFor registries config chain reference := by
  simp only [requestsUnder, List.mem_flatMap, List.mem_reverse]

/-- The last request that a reference leads to is the one for itself. -/
theorem mem_requestsFor : ⟨chain, reference⟩ ∈ requestsFor registries config chain reference := by
  rw [requestsFor]
  split
  · exact List.mem_singleton_self _
  · split
    · exact List.mem_singleton_self _
    · exact List.mem_append_right _ (List.mem_singleton_self _)

theorem requestsFor_of_run?_eq_none
    (hrun : Request.run? registries config ⟨chain, reference⟩ = none) :
    requestsFor registries config chain reference = [⟨chain, reference⟩] := by
  rw [requestsFor]
  split
  · rfl
  · rename_i hmem
    split
    · rfl
    · rename_i hlookup
      rw [Request.run?_of_lookupKpi hmem hlookup] at hrun
      cases hrun

/-- The requests made by the run come before the one that it is made for. -/
theorem requestsFor_of_lookupKpi {document : Text} (h : reference.kpi ∉ chain)
    (hlookup : registries.lookupKpi reference.kpi = some document) :
    requestsFor registries config chain reference =
      requestsUnder registries config.nested (chain ++ [reference.kpi]) document ++
        [⟨chain, reference⟩] := by
  rw [requestsFor, dif_neg h]
  split
  · rename_i hnone
    rw [hlookup] at hnone
    cases hnone
  · rename_i hdocument
    obtain rfl := Option.some.inj (hlookup.symm.trans hdocument)
    rfl

/-! ### What a run answers -/

theorem Run.answer_of_raw_eq_nil {run : Run} (hraw : run.outcome.raw = [])
    (reference : Reference) (log : Log) :
    run.answer reference log =
      (reference.placeholder,
        (log.watch run.events).report (.unusable reference.kpi run.outcome.block)) := by
  rw [answer, if_pos (List.isEmpty_iff.mpr hraw)]

theorem Run.answer_of_raw_ne_nil {run : Run} (hraw : run.outcome.raw ≠ [])
    (reference : Reference) (log : Log) :
    run.answer reference log =
      (run.textFor reference,
        if run.outcome.faults = [] then log.watch run.events
        else (log.watch run.events).report (.faulty reference.kpi)) := by
  rw [answer, if_neg (List.isEmpty_iff.not.mpr hraw)]
  simp only [List.isEmpty_iff]
  split <;> rfl

/-! ### What is shown -/

theorem Run.events_answer (run : Run) (reference : Reference) (log : Log) :
    (run.answer reference log).2.events = log.events ++ run.events := by
  rw [answer]
  split
  · rfl
  · split <;> rfl

/-- **Resolving a reference** shows what the run made for it shows, and nothing else. -/
theorem Request.events_resolve (log : Log) :
    (resolve registries config chain reference log).2.events =
      log.events ++ (run? registries config ⟨chain, reference⟩).toList.flatMap Run.events := by
  cases hrun : run? registries config ⟨chain, reference⟩ with
  | none =>
      obtain ⟨fault, hresolve⟩ := resolve_of_run?_eq_none hrun log
      rw [hresolve]
      exact (List.append_nil _).symm
  | some run =>
      rw [resolve_of_run? hrun, Run.events_answer, Option.toList_some, List.flatMap_singleton]

/-- The references of a formula are answered from the right. -/
theorem events_answers (occurrences : List Reference.Occurrence) (log : Log) :
    (Reference.answers (resolver registries config chain) occurrences log).2.events =
      log.events ++ ((occurrences.filterMap Reference.Occurrence.site?).reverse.flatMap fun site =>
        (Request.run? registries config ⟨chain, site.1⟩).toList.flatMap Run.events) := by
  induction occurrences with
  | nil => exact (List.append_nil _).symm
  | cons occurrence rest ih =>
      cases occurrence with
      | wellFormed reference span =>
          have hsites : (Reference.Occurrence.wellFormed reference span :: rest).filterMap
              Reference.Occurrence.site? =
                (reference, span) :: rest.filterMap Reference.Occurrence.site? := rfl
          rw [Reference.answers_wellFormed, hsites, List.reverse_cons, List.flatMap_append,
            List.flatMap_singleton, ← List.append_assoc, ← ih]
          exact Request.events_resolve _
      | malformed fault span => exact ih

/-- **Pass 1** shows what the runs made for its references show, one run after the other. -/
theorem Stage.inner_inline (registries : Registries) (config : Config) (chain : List Text)
    (stage : Stage) :
    (stage.inline config (resolver registries config chain)).inner =
      ((stage.requests chain).filterMap (Request.run? registries config)).flatMap Run.events := by
  rw [inline, requests, references]
  split
  · rw [Reference.substitute_eq_spliceAll, ← List.map_reverse, List.map_map,
      List.filterMap_eq_flatMap_toList, List.flatMap_map, List.flatMap_assoc]
    exact events_answers (Reference.occurrences stage.tokens) .empty
  · rfl

end CounterFormula
