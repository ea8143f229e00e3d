import CounterFormula.Proofs.Reference.Substitution
import CounterFormula.Proofs.Run.Recording
import Mathlib.Logic.Relation

/-!
# Run — References

Which KPIs a document leads to.  A document *cites* the references that by the grammar occur in its
cleaned formula, if that mentions any.  A registered KPI *refers* to the KPIs of the references that
its own document cites; a document *reaches* the KPIs it cites, and the ones they refer to in turn.
A run inside another is made with its KPI added to the chain of those that are being resolved.

* `Run.mem_references_iff`: pass 1 replaces the references that the document cites.
* `Registries.chain_induction`: what is proved of a run from the runs inside it, holds of every run.
-/

namespace CounterFormula

open Relation (ReflTransGen)

/-- **Along chains.**  What holds of a chain as soon as it holds of the chain with any other
registered KPI at its end, holds of every chain: there are no more KPIs than the registry has. -/
theorem Registries.chain_induction (registries : Registries) {motive : List Text → Prop}
    (extend : ∀ chain, (∀ id document, id ∉ chain → registries.lookupKpi id = some document →
      motive (chain ++ [id])) → motive chain) (chain : List Text) : motive chain :=
  extend chain fun id _ hnew hlookup =>
    have _hless := Registries.pending_lt_of_lookupKpi hlookup hnew
    chain_induction registries extend (chain ++ [id])
termination_by registries.pending chain

/-- The references that pass 1 replaces. -/
def Stage.references (stage : Stage) : List Reference :=
  if Reference.mentionedIn stage.source then (Reference.sites stage.tokens).map Prod.fst else []

theorem Stage.mem_references_iff {stage : Stage} {reference : Reference} :
    reference ∈ stage.references ↔ Reference.mentionedIn stage.source = true ∧
      ∃ span, Reference.Occurs stage.tokens (.wellFormed reference span) := by
  rw [references]
  split
  · rename_i hmention
    rw [List.mem_map, Prod.exists]
    simp only [Reference.mem_sites_iff, exists_and_right, exists_eq_right, hmention, true_and]
  · rename_i hmention
    exact iff_of_false List.not_mem_nil fun h => hmention h.1

/-- The references that pass 1 of a run over `document` replaces. -/
def Run.references (config : Config) (document : Text) : List Reference :=
  match Block.locate config.startPhrase (Block.mendPhrase document) with
  | .formula raw => (Stage.clean config raw).references
  | _ => []

/-- The document has a formula that mentions references, and by the grammar `reference` occurs in it
when it is cleaned. -/
def Run.Cites (config : Config) (document : Text) (reference : Reference) : Prop :=
  ∃ raw, Block.locate config.startPhrase (Block.mendPhrase document) = .formula raw ∧
    Reference.mentionedIn (clean config.encoding raw) = true ∧
    ∃ span, Reference.Occurs (lex config.mode (clean config.encoding raw)).body
      (.wellFormed reference span)

/-- **Pass 1** replaces what the formula of the document cites. -/
theorem Run.mem_references_iff {config : Config} {document : Text} {reference : Reference} :
    reference ∈ references config document ↔ Cites config document reference := by
  rw [references]
  cases hlocate : Block.locate config.startPhrase (Block.mendPhrase document) with
  | noPhrase | flawed _ =>
      refine iff_of_false List.not_mem_nil ?_
      rintro ⟨raw, hraw, -⟩
      rw [hlocate] at hraw
      cases hraw
  | formula raw =>
      constructor
      · intro h
        exact ⟨raw, hlocate, Stage.mem_references_iff.mp h⟩
      · rintro ⟨raw', hraw, h⟩
        obtain rfl := Block.formula.inj (hlocate.symm.trans hraw)
        exact Stage.mem_references_iff.mpr h

/-- The KPI `id` is registered, and its document cites a reference to `other`. -/
def Registries.Refers (registries : Registries) (config : Config) (id other : Text) : Prop :=
  ∃ document, registries.lookupKpi id = some document ∧
    ∃ reference, Run.Cites config document reference ∧ reference.kpi = other

/-- The document cites a reference to a KPI from which references lead to `id`. -/
def Registries.Reaches (registries : Registries) (config : Config) (document id : Text) : Prop :=
  ∃ reference, Run.Cites config document reference ∧
    ReflTransGen (registries.Refers config.nested) reference.kpi id

theorem Registries.refers_iff {registries : Registries} {config : Config} {id other : Text} :
    registries.Refers config id other ↔ ∃ document, registries.lookupKpi id = some document ∧
      ∃ reference ∈ Run.references config document, reference.kpi = other := by
  simp only [Refers, Run.mem_references_iff]

theorem Registries.refers_of_mem {registries : Registries} {config : Config} {id document : Text}
    {reference : Reference} (hlookup : registries.lookupKpi id = some document)
    (hmem : reference ∈ Run.references config document) :
    registries.Refers config id reference.kpi :=
  refers_iff.mpr ⟨document, hlookup, reference, hmem, rfl⟩

theorem Registries.reaches_iff {registries : Registries} {config : Config} {document id : Text} :
    registries.Reaches config document id ↔ ∃ reference ∈ Run.references config document,
      ReflTransGen (registries.Refers config.nested) reference.kpi id := by
  simp only [Reaches, Run.mem_references_iff]

/-- Only registered KPIs refer to others. -/
theorem Registries.Refers.exists_lookupKpi {registries : Registries} {config : Config}
    {id other : Text} (h : registries.Refers config id other) :
    ∃ document, registries.lookupKpi id = some document :=
  h.imp fun _ h => h.1

/-- A registered KPI refers to what its document refers to. -/
theorem Registries.exists_refers_iff {registries : Registries} {config : Config}
    {id document : Text} (hlookup : registries.lookupKpi id = some document) {P : Text → Prop} :
    (∃ other, registries.Refers config id other ∧ P other) ↔
      ∃ reference ∈ Run.references config document, P reference.kpi := by
  simp only [refers_iff]
  constructor
  · rintro ⟨_, ⟨document', hlookup', reference, hmem, rfl⟩, hP⟩
    obtain rfl : document = document' := Option.some.inj (hlookup.symm.trans hlookup')
    exact ⟨reference, hmem, hP⟩
  · rintro ⟨reference, hmem, hP⟩
    exact ⟨reference.kpi, ⟨document, hlookup, reference, hmem, rfl⟩, hP⟩

/-- A KPI that is not registered refers to none. -/
theorem Registries.not_refers {registries : Registries} {config : Config} {id other : Text}
    (hlookup : registries.lookupKpi id = .none) : ¬ registries.Refers config id other := by
  rintro ⟨document, hdocument, -⟩
  rw [hlookup] at hdocument
  cases hdocument

end CounterFormula
