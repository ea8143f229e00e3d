import CounterFormula.Proofs.Fault.Severity
import CounterFormula.Proofs.Run.Inner
import Mathlib.Data.List.Perm.Basic

/-!
# Run — WellNested

What an observer sees of a run, in order, and how it agrees with what the run leaves behind.  All
the runs inside a run report to one observer, while each keeps a list of its own faults, and the
faults of a pass are reported when the pass is over.

* `WellNested`: the events of the runs inside come whole, one run after the other, between the
  source of pass 0 and the run's own faults of pass 1; around them stand the run's own faults, pass
  by pass, and the source that each pass leaves.
* `WellNested.perm_reported`: what a run reports, its own list and the runs inside it account for.
* `wellNested_trace`: so it is for every run, at every depth.
-/

namespace CounterFormula

/-- The fault that an event reports. -/
def Event.fault? : Event → Option Fault
  | .fault found => some found
  | .pass _ _ => none

theorem Event.filterMap_fault? (faults : List Fault) :
    (faults.map Event.fault).filterMap Event.fault? = faults := by
  rw [List.filterMap_map]
  exact List.filterMap_some

/-- The faults that an observer of the run has seen. -/
def Run.reported (run : Run) : List Fault :=
  run.events.filterMap Event.fault?

namespace Outcome

/-- The faults that a pass has found. -/
def faultsOf (outcome : Outcome) (pass : Nat) : List Fault :=
  outcome.faults.filter fun fault => fault.pass == pass

/-- The end of a pass: its faults, and the source that it leaves. -/
def passed (outcome : Outcome) (pass : Nat) (source : Text) : List Event :=
  (outcome.faultsOf pass).map Event.fault ++ [.pass pass source]

end Outcome

/-- `run` has shown what the runs `inner` inside it have shown, one after the other, after pass 0,
and its own faults and sources in the order of the passes. -/
inductive WellNested : Run → List Run → Prop where
  | noPhrase {outcome : Outcome} (hblock : outcome.block = .noPhrase)
      (hfaults : outcome.faults = []) :
      WellNested ⟨outcome, []⟩ []
  | flawed {outcome : Outcome} {flaw : BlockFlaw} (hblock : outcome.block = .flawed flaw)
      (hfaults : outcome.faults = [.structural flaw]) :
      WellNested ⟨outcome, [.fault (.structural flaw)]⟩ []
  | formula {outcome : Outcome} {raw : Text} {inner : List Run}
      (hblock : outcome.block = .formula raw) (hraw : raw ≠ [])
      (hfaults : outcome.faults = outcome.faultsOf 0 ++ outcome.faultsOf 1 ++ outcome.faultsOf 2 ++
        outcome.faultsOf 3 ++ outcome.faultsOf 4) :
      WellNested
        ⟨outcome, outcome.passed 0 outcome.cleaned ++ inner.flatMap Run.events ++
          outcome.passed 1 outcome.inlined ++ outcome.passed 2 outcome.substituted ++
          outcome.passed 3 outcome.expanded ++ (outcome.faultsOf 4).map Event.fault⟩
        inner

/-! ### Faults and their passes -/

namespace Stage

variable {mode : Mode} {number : Nat} {source : Text} {faults : List Fault}

theorem pass_of_mem_reach (h : ∀ fault ∈ faults, fault.pass = number) :
    ∀ fault ∈ (reach mode number source faults).faults, fault.pass = number := by
  intro fault hfault
  rcases List.mem_append.mp hfault with hfault | hfault
  · exact h fault hfault
  · obtain ⟨found, -, rfl⟩ := List.mem_map.mp hfault
    rfl

theorem pass_of_mem_clean (config : Config) (raw : Text) :
    ∀ fault ∈ (clean config raw).faults, fault.pass = 0 := by
  refine pass_of_mem_reach fun fault hfault => ?_
  split at hfault
  · rw [List.mem_singleton.mp hfault]
    rfl
  · cases hfault

theorem pass_of_mem_inline (config : Config) (resolver : Reference.Resolver Log) (stage : Stage) :
    ∀ fault ∈ (stage.inline config resolver).faults, fault.pass = 1 := by
  rw [inline]
  split
  · exact pass_of_mem_reach (List.forall_mem_map.mpr fun _ _ => rfl)
  · exact List.forall_mem_nil _

end Stage

theorem filter_pass {faults : List Fault} {number : Nat}
    (h : ∀ fault ∈ faults, fault.pass = number) (pass : Nat) :
    (faults.filter fun fault => fault.pass == pass) = if number = pass then faults else [] := by
  split
  · rename_i heq
    exact List.filter_eq_self.mpr fun fault hfault => beq_iff_eq.mpr ((h fault hfault).trans heq)
  · rename_i hne
    refine List.filter_eq_nil_iff.mpr fun fault hfault hpass => hne ?_
    exact (h fault hfault).symm.trans (beq_iff_eq.mp hpass)

namespace Run

variable {screenings : Option ScreeningRegistry} {config : Config} {raw : Text}

/-- Each pass of a run has found its own faults. -/
theorem faultsOf_ofInlined (screenings : Option ScreeningRegistry) (config : Config) (raw : Text)
    {cleaned inlined : Stage}
    (hcleaned : ∀ fault ∈ cleaned.faults, fault.pass = 0)
    (hinlined : ∀ fault ∈ inlined.faults, fault.pass = 1) :
    let outcome := (ofInlined screenings config raw cleaned inlined).outcome
    let substituted := inlined.assign config (Assignment.extract inlined.tokens).1
      (Assignment.extract inlined.tokens).2
    let expanded := substituted.sum config screenings
    outcome.faultsOf 0 = cleaned.faults ∧ outcome.faultsOf 1 = inlined.faults ∧
      outcome.faultsOf 2 = substituted.faults ∧ outcome.faultsOf 3 = expanded.faults ∧
      outcome.faultsOf 4 =
        (SymbolTable.undefinedVariables expanded.tokens).map Fault.undefined := by
  intro outcome substituted expanded
  have hsubstituted : ∀ fault ∈ substituted.faults, fault.pass = 2 :=
    Stage.pass_of_mem_reach (List.forall_mem_map.mpr fun _ _ => rfl)
  have hexpanded : ∀ fault ∈ expanded.faults, fault.pass = 3 :=
    Stage.pass_of_mem_reach (List.forall_mem_map.mpr fun _ _ => rfl)
  have hundefined : ∀ fault ∈ (SymbolTable.undefinedVariables expanded.tokens).map
      Fault.undefined, fault.pass = 4 := List.forall_mem_map.mpr fun _ _ => rfl
  have hfaults : outcome.faults = cleaned.faults ++ inlined.faults ++ substituted.faults ++
      expanded.faults ++ (SymbolTable.undefinedVariables expanded.tokens).map Fault.undefined := by
    simp only [outcome, ofInlined_eq, substituted, expanded]
  simp [Outcome.faultsOf, hfaults, List.filter_append, filter_pass hcleaned, filter_pass hinlined,
    filter_pass hsubstituted, filter_pass hexpanded, filter_pass hundefined]

/-- A run over a formula is well nested when the passes 0 and 1 are. -/
theorem wellNested_ofInlined {cleaned inlined : Stage} {inner : List Run} (hraw : raw ≠ [])
    (hcleaned : ∀ fault ∈ cleaned.faults, fault.pass = 0) (hnothing : cleaned.inner = [])
    (hinlined : ∀ fault ∈ inlined.faults, fault.pass = 1)
    (hinner : inlined.inner = inner.flatMap Run.events) :
    WellNested (ofInlined screenings config raw cleaned inlined) inner := by
  obtain ⟨h0, h1, h2, h3, h4⟩ :=
    faultsOf_ofInlined screenings config raw hcleaned hinlined
  have hnested := @WellNested.formula (ofInlined screenings config raw cleaned inlined).outcome raw
    inner block_ofInlined hraw (by rw [h0, h1, h2, h3, h4, ofInlined_eq])
  -- pass 0 shows nothing but its own, pass 1 the runs inside first, and later passes make no run
  have hassign (table faults) : (inlined.assign config table faults).inner = [] := rfl
  have hsum (stage : Stage) : (stage.sum config screenings).inner = [] := rfl
  simp only [Outcome.passed, h0, h1, h2, h3, h4, ← hinner, List.append_assoc] at hnested
  simpa only [ofInlined_eq, Stage.events, hnothing, hassign, hsum, List.nil_append,
    List.append_assoc] using hnested

end Run

/-! ### Every run -/

/-- A block that is found is not empty. -/
theorem Block.ne_nil_of_locate {phrase document raw : Text}
    (h : locate phrase document = .formula raw) : raw ≠ [] := by
  unfold locate at h
  split at h
  · cases h
  split at h
  · cases h
  split at h
  · cases h
  dsimp only at h
  split at h
  · cases h
  · rename_i hempty
    obtain rfl := Block.formula.inj h
    exact fun hnil => hempty (List.isEmpty_iff.mpr hnil)

section

variable (resolver : Reference.Resolver Log) (screenings : Option ScreeningRegistry)
  (config : Config) (document : Text)

/-- A run notes where it has found its formula. -/
theorem Run.block_ofDocument :
    (ofDocument resolver screenings config document).outcome.block =
      Block.locate config.startPhrase (Block.mendPhrase document) := by
  rw [ofDocument]
  split
  · rename_i hlocate
    exact hlocate.symm
  · rename_i hlocate
    exact hlocate.symm
  · rename_i hlocate
    exact block_ofInlined.trans hlocate.symm

/-- A run is as bad as its worst fault. -/
theorem Run.severity_ofDocument :
    (ofDocument resolver screenings config document).outcome.severity =
      Severity.worst ((ofDocument resolver screenings config document).outcome.faults.map
        (Fault.severity config.mode)) := by
  rw [ofDocument]
  split
  · rfl
  · rfl
  · rw [ofFormula, ofInlined_eq]

end

variable {registries : Registries} {config : Config} {chain : List Text} {document : Text}

/-- **The trace of a run** is well nested, with the runs made for its references inside. -/
theorem WellNested.runUnder (registries : Registries) (config : Config) (chain : List Text)
    (document : Text) :
    WellNested (runUnder registries config chain document)
      ((Run.requests config chain document).filterMap (Request.run? registries config)) := by
  rw [CounterFormula.runUnder, Run.ofDocument, Run.requests, Run.references]
  cases hlocate : Block.locate config.startPhrase (Block.mendPhrase document) with
  | noPhrase => exact .noPhrase rfl rfl
  | flawed flaw => exact .flawed rfl rfl
  | formula raw =>
      exact Run.wellNested_ofInlined (Block.ne_nil_of_locate hlocate)
        (Stage.pass_of_mem_clean config raw) rfl (Stage.pass_of_mem_inline config _ _)
        (Stage.inner_inline registries config chain _)

/-- The trace of a run reports its own faults, and what the runs inside it report. -/
theorem WellNested.perm_reported {run : Run} {inner : List Run} (h : WellNested run inner) :
    run.reported.Perm (run.outcome.faults ++ inner.flatMap Run.reported) := by
  cases h with
  | noPhrase _ hfaults => simp [Run.reported, hfaults]
  | flawed _ hfaults => simp [Run.reported, hfaults, Event.fault?]
  | @formula outcome _ inner _ _ hfaults =>
      have hpassed (pass : Nat) (source : Text) :
          (outcome.passed pass source).filterMap Event.fault? = outcome.faultsOf pass := by
        rw [Outcome.passed, List.filterMap_append, Event.filterMap_fault?]
        exact List.append_nil _
      have hinner : (inner.flatMap Run.events).filterMap Event.fault? =
          inner.flatMap Run.reported := List.filterMap_flatMap
      -- the runs inside report after pass 0, and before what is found later
      obtain ⟨later, hlater⟩ : ∃ later, later = outcome.faultsOf 1 ++ outcome.faultsOf 2 ++
        outcome.faultsOf 3 ++ outcome.faultsOf 4 := ⟨_, rfl⟩
      have hown : outcome.faults = outcome.faultsOf 0 ++ later := by
        rw [hlater]
        simp only [← List.append_assoc]
        exact hfaults
      calc Run.reported _
          = outcome.faultsOf 0 ++ (inner.flatMap Run.reported ++ later) := by
            simp only [Run.reported, List.filterMap_append, Event.filterMap_fault?, hpassed, hinner,
              hlater, List.append_assoc]
        _ |>.Perm (outcome.faultsOf 0 ++ (later ++ inner.flatMap Run.reported)) :=
            List.perm_append_comm.append_left _
        _ = outcome.faults ++ inner.flatMap Run.reported := by
            rw [← List.append_assoc, ← hown]

/-- A run lists its faults by the pass that has found them. -/
theorem WellNested.pairwise_pass {run : Run} {inner : List Run} (h : WellNested run inner) :
    (run.outcome.faults.map Fault.pass).Pairwise (· ≤ ·) := by
  cases h with
  | noPhrase _ hfaults => simp [hfaults]
  | flawed _ hfaults => simp [hfaults]
  | @formula outcome _ inner _ _ hfaults =>
      have hpass {pass : Nat} {fault : Fault} (h : fault ∈ outcome.faultsOf pass) :
          fault.pass = pass := beq_iff_eq.mp (List.mem_filter.mp h).2
      have hparts : outcome.faults = [0, 1, 2, 3, 4].flatMap outcome.faultsOf := by
        rw [hfaults]
        simp only [List.flatMap_cons, List.flatMap_nil, List.append_nil, List.append_assoc]
      rw [List.pairwise_map, hparts, List.pairwise_flatMap]
      constructor
      · intro pass _
        exact List.pairwise_of_forall_mem_list fun fault h other h' =>
          Nat.le_of_eq ((hpass h).trans (hpass h').symm)
      · have hpasses : [0, 1, 2, 3, 4].Pairwise (· ≤ ·) := by decide
        refine hpasses.imp fun hle fault h other h' => ?_
        rwa [hpass h, hpass h']

/-- The faults of the runs made for `requests`, in their order. -/
def faultsWithin (registries : Registries) (config : Config) (requests : List Request) :
    List Fault :=
  (requests.filterMap (Request.run? registries config)).flatMap fun run => run.outcome.faults

theorem faultsWithin_append (registries : Registries) (config : Config)
    (requests more : List Request) :
    faultsWithin registries config (requests ++ more) =
      faultsWithin registries config requests ++ faultsWithin registries config more := by
  rw [faultsWithin, List.filterMap_append, List.flatMap_append]
  rfl

theorem faultsWithin_flatMap {α : Type} (registries : Registries) (config : Config)
    (parts : List α) (requests : α → List Request) :
    faultsWithin registries config (parts.flatMap requests) =
      parts.flatMap fun part => faultsWithin registries config (requests part) := by
  rw [faultsWithin, List.filterMap_flatMap, List.flatMap_assoc]
  rfl

theorem faultsWithin_singleton (registries : Registries) (config : Config) (request : Request) :
    faultsWithin registries config [request] =
      (request.run? registries config).toList.flatMap fun run => run.outcome.faults := by
  rw [faultsWithin, List.filterMap_eq_flatMap_toList, List.flatMap_singleton]

/-- **What a run reports**, its own list and the lists of the runs inside it, at every depth,
account for. -/
theorem perm_reported_runUnder (registries : Registries) (config : Config) (chain : List Text)
    (document : Text) :
    (runUnder registries config chain document).reported.Perm
      ((runUnder registries config chain document).outcome.faults ++
        faultsWithin registries config (requestsUnder registries config chain document)) := by
  induction chain using registries.chain_induction generalizing config document with
  | extend chain ih =>
      refine (WellNested.runUnder registries config chain document).perm_reported.trans ?_
      refine List.Perm.append_left _ ?_
      rw [requestsUnder, faultsWithin_flatMap, Run.requests, List.filterMap_map,
        List.filterMap_eq_flatMap_toList, List.flatMap_assoc]
      refine List.Perm.flatMap_left _ fun reference _ => ?_
      rw [Function.comp_apply]
      -- one request: the run made for it reports last what it has found itself
      cases hrun : Request.run? registries config ⟨chain, reference⟩ with
      | none =>
          rw [requestsFor_of_run?_eq_none hrun, faultsWithin_singleton, hrun]
          exact .refl _
      | some run =>
          obtain ⟨hnew, document, hlookup, rfl⟩ := Request.exists_of_run? hrun
          rw [requestsFor_of_lookupKpi hnew hlookup, faultsWithin_append, faultsWithin_singleton,
            hrun, Option.toList_some, List.flatMap_singleton, List.flatMap_singleton]
          exact (ih _ document hnew hlookup config.nested document).trans List.perm_append_comm

/-- **The trace of every run** is well nested: a document without a formula shows nothing, or the
one flaw of its block, and otherwise the runs inside come whole between the source of pass 0 and
the faults of pass 1, while the run's own faults and sources come in the order of the passes.  So
what any run has found is reported once, the passes of a run's faults never decrease, and the run
is as bad as the worst of them. -/
theorem wellNested_trace (registries : Registries) (config : Config) (chain : List Text)
    (document : Text) :
    let run := runUnder registries config chain document
    let inner := (Run.requests config chain document).filterMap (Request.run? registries config)
    let within := requestsUnder registries config chain document
    run.outcome.block = Block.locate config.startPhrase (Block.mendPhrase document) ∧
      WellNested run inner ∧
      run.reported.Perm (run.outcome.faults ++ faultsWithin registries config within) ∧
      (run.outcome.faults.map Fault.pass).Pairwise (· ≤ ·) ∧
      (run.outcome.faults = [] → run.outcome.severity = .normal) ∧
      (run.outcome.faults ≠ [] →
        IsGreatest {s | ∃ fault ∈ run.outcome.faults, fault.severity config.mode = s}
          run.outcome.severity) := by
  intro run inner within
  have hnested : WellNested run inner := .runUnder registries config chain document
  have hseverity : run.outcome.severity =
      Severity.worst (run.outcome.faults.map (Fault.severity config.mode)) :=
    Run.severity_ofDocument _ _ _ _
  refine ⟨Run.block_ofDocument _ _ _ _, hnested, perm_reported_runUnder _ _ _ _,
    hnested.pairwise_pass, fun hnil => ?_, fun hne => ?_⟩
  · rw [hseverity, hnil]
    rfl
  · have hgreatest :=
      Severity.isGreatest_worst (List.map_eq_nil_iff.not.mpr hne : run.outcome.faults.map
        (Fault.severity config.mode) ≠ [])
    rw [← hseverity] at hgreatest
    simpa only [List.mem_map] using hgreatest

end CounterFormula
