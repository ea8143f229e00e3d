import CounterFormula.Proofs.Run.Context
import CounterFormula.Proofs.Run.References

/-!
# Run — Nesting

A run that hands one context from call to call, and may not nest deeper than a bound.  `resolve`
gives every nested run a chain of its own, and its recursion is justified by the ids that are not
on the chain.  Here the KPIs being resolved are in a `Context` that all runs share: each call
finds it as the call before has left it.  A document that would be run beyond the bound is not
run, and the `Ledger` says so.  It also keeps every call, with the context before and after.

`Makes` says which calls there should be: the one for a reference, and when it runs a document,
the ones for the references in it.

* `Makes.valid`: the ids that are being resolved at a call are distinct and registered.
* `follows_resolverWithin`: with as much room as there are ids left, calls answer as `resolve`
  does, leave the context as it was, and make the calls that `Makes` says.
* `runWithin_eq`: a run that may nest as deep as there are ids registered is never cut short, and
  gives what `run` gives.
-/

namespace CounterFormula

/-- One call to resolve a reference. -/
structure Visit where
  kpi : Text
  /-- The KPIs being resolved when the call was made. -/
  before : Context
  /-- The same when it was over. -/
  after : Context
  deriving DecidableEq

/-- What the runs in each other share. -/
structure Ledger where
  context : Context
  /-- The calls that are over. -/
  visits : List Visit
  /-- The document of a KPI was not run since the bound was reached. -/
  exhausted : Bool
  deriving DecidableEq

namespace Ledger

def empty : Ledger := ⟨.empty, [], false⟩

/-- A KPI is being resolved now. -/
def enter (ledger : Ledger) (id : Text) : Ledger :=
  { ledger with context := ledger.context.push id }

/-- The KPI entered last is no longer being resolved. -/
def leave (ledger : Ledger) : Ledger :=
  { ledger with context := ledger.context.pop }

/-- A call for `id`, made in the context `before`, is over. -/
def close (ledger : Ledger) (id : Text) (before : Context) : Ledger :=
  { ledger with visits := ledger.visits ++ [⟨id, before, ledger.context⟩] }

end Ledger

/-! ### Runs with a shared state -/

/-- The run over a document, with references answered by a resolver that has a state besides the
log; every run begins with a log of its own. -/
def Run.ofDocumentIn {σ : Type} (resolver : Reference.Resolver (Log × σ))
    (screenings : Option ScreeningRegistry) (config : Config) (document : Text) (state : σ) :
    Run × σ :=
  match Block.locate config.startPhrase (Block.mendPhrase document) with
  | .noPhrase => (located .noPhrase, state)
  | .flawed flaw => ((located (.flawed flaw)).record config.mode (.structural flaw), state)
  | .formula raw =>
    let cleaned := Stage.clean config raw
    if Reference.mentionedIn cleaned.source then
      let (source, log, state) :=
        Reference.substitute resolver cleaned.source cleaned.tokens (.empty, state)
      (ofInlined screenings config raw cleaned (Stage.reachInlined config source log), state)
    else (ofInlined screenings config raw cleaned cleaned.unchanged, state)

/-- The answer to `reference`, up to the record of the call.  The references in a KPI's document
are answered by `inner`; without it the document is not run. -/
def answerWithin (registries : Registries) (config : Config)
    (inner : Option (Reference.Resolver (Log × Ledger))) (reference : Reference) (log : Log)
    (ledger : Ledger) : Text × Log × Ledger :=
  if reference.kpi ∈ ledger.context.members then
    (reference.placeholder, log.report (.cyclic ledger.context.stack reference.kpi), ledger)
  else
    match registries.lookupKpi reference.kpi with
    | none => (reference.placeholder, log.report (.unknownKpi reference.kpi), ledger)
    | some document =>
      match inner with
      | none => (reference.placeholder, log, { ledger with exhausted := true })
      | some inner =>
        let (run, ledger) := Run.ofDocumentIn inner registries.screenings config.nested document
          (ledger.enter reference.kpi)
        let (text, log) := run.answer reference log
        (text, log, ledger.leave)

/-- The resolver whose answers `answerWithin` gives; the calls are put down in the ledger. -/
def resolverOnce (registries : Registries) (config : Config)
    (inner : Option (Reference.Resolver (Log × Ledger))) : Reference.Resolver (Log × Ledger) where
  resolve reference state :=
    let (text, log, ledger) := answerWithin registries config inner reference state.1 state.2
    (text, log, ledger.close reference.kpi state.2.context)
  report fault state := (state.1.report fault, state.2)

/-- The resolver that runs documents in each other up to `bound` deep. -/
def resolverWithin (registries : Registries) (config : Config) :
    Nat → Reference.Resolver (Log × Ledger)
  | 0 => resolverOnce registries config none
  | bound + 1 =>
    resolverOnce registries config (some (resolverWithin registries config.nested bound))

/-- The run over `document`, with runs inside it up to `bound` deep. -/
def runWithin (registries : Registries) (config : Config) (bound : Nat) (document : Text) :
    Run × Ledger :=
  Run.ofDocumentIn (resolverWithin registries config bound) registries.screenings config document
    .empty

variable {registries : Registries} {config : Config} {context : Context}

/-! ### Which calls there are -/

/-- `Makes registries config context id visit`: a reference to `id`, resolved in `context`, makes
the call `visit`, which leaves the context as it was. -/
inductive Makes (registries : Registries) (config : Config) : Context → Text → Visit → Prop where
  | itself (context : Context) (id : Text) :
      Makes registries config context id ⟨id, context, context⟩
  | inside {context : Context} {id other : Text} {visit : Visit} (hnew : id ∉ context.stack)
      (hrefers : registries.Refers config id other)
      (hmakes : Makes registries config (context.push id) other visit) :
      Makes registries config context id visit

theorem makes_iff {id : Text} {visit : Visit} :
    Makes registries config context id visit ↔
      visit = ⟨id, context, context⟩ ∨
        id ∉ context.stack ∧ ∃ other, registries.Refers config id other ∧
          Makes registries config (context.push id) other visit := by
  constructor
  · intro h
    cases h with
    | itself => exact .inl rfl
    | inside hnew hrefers hmakes => exact .inr ⟨hnew, _, hrefers, hmakes⟩
  · rintro (rfl | ⟨hnew, other, hrefers, hmakes⟩)
    · exact .itself context id
    · exact .inside hnew hrefers hmakes

/-- Along a chain of calls, the ids being resolved stay distinct and registered. -/
theorem Makes.valid {id : Text} {visit : Visit} (h : Makes registries config context id visit)
    (hvalid : context.Valid registries) : visit.before.Valid registries := by
  induction h with
  | itself => exact hvalid
  | inside hnew hrefers _ ih =>
      obtain ⟨document, hlookup⟩ := hrefers.exists_lookupKpi
      exact ih (hvalid.push (Registries.mem_ids_of_lookupKpi hlookup) hnew)

theorem Makes.restores {id : Text} {visit : Visit} (h : Makes registries config context id visit) :
    visit.after = visit.before := by
  induction h with
  | itself => rfl
  | inside _ _ _ ih => exact ih

/-! ### What a call keeps -/

namespace Ledger

/-- The context is `context`, and nothing was cut short. -/
structure In (context : Context) (ledger : Ledger) : Prop where
  context_eq : ledger.context = context
  complete : ledger.exhausted = false

/-- Between `before` and `after`, just the calls that `made` holds of were made. -/
def Adds (before after : Ledger) (made : Visit → Prop) : Prop :=
  ∀ visit, visit ∈ after.visits ↔ visit ∈ before.visits ∨ made visit

variable {ledger : Ledger} {id : Text}

theorem In.enter (h : ledger.In context) (id : Text) : (ledger.enter id).In (context.push id) :=
  ⟨congrArg (Context.push · id) h.context_eq, h.complete⟩

theorem In.leave (h : ledger.In (context.push id)) (hnew : id ∉ context.members) :
    ledger.leave.In context := by
  refine ⟨?_, h.complete⟩
  rw [Ledger.leave, h.context_eq]
  exact Context.pop_push hnew

theorem In.close (h : ledger.In context) (id : Text) (before : Context) :
    (ledger.close id before).In context :=
  ⟨h.context_eq, h.complete⟩

theorem adds_nothing {made : Visit → Prop} (h : ∀ visit, ¬ made visit) :
    ledger.Adds ledger made := by
  intro visit
  exact (or_iff_left (h visit)).symm

theorem Adds.trans {before middle after : Ledger} {made more : Visit → Prop}
    (h : before.Adds middle made) (h' : middle.Adds after more) :
    before.Adds after fun visit => made visit ∨ more visit := by
  intro visit
  rw [h' visit, h visit, or_assoc]

theorem Adds.congr {before after : Ledger} {made more : Visit → Prop} (h : before.Adds after made)
    (heq : ∀ visit, made visit ↔ more visit) : before.Adds after more := by
  intro visit
  rw [h visit, heq visit]

theorem Adds.close {before after : Ledger} {made : Visit → Prop} (h : before.Adds after made)
    (id : Text) (context : Context) :
    before.Adds (after.close id context) fun visit =>
      visit = ⟨id, context, after.context⟩ ∨ made visit := by
  intro visit
  rw [Ledger.close, List.mem_append, List.mem_singleton, h visit, or_assoc,
    or_comm (b := _ = _)]

end Ledger

/-- In `context`, `resolver` answers and logs as `plain` does, leaves the context as it was, and
makes for each reference the calls that `made` holds of. -/
structure Follows (context : Context) (made : Reference → Visit → Prop)
    (resolver : Reference.Resolver (Log × Ledger)) (plain : Reference.Resolver Log) : Prop where
  resolve : ∀ reference log ledger, ledger.In context →
    ∃ after, after.In context ∧ ledger.Adds after (made reference) ∧
      resolver.resolve reference (log, ledger) =
        ((plain.resolve reference log).1, (plain.resolve reference log).2, after)
  report : ∀ fault log ledger,
    resolver.report fault (log, ledger) = (plain.report fault log, ledger)

namespace Follows

variable {made : Reference → Visit → Prop} {resolver : Reference.Resolver (Log × Ledger)}
  {plain : Reference.Resolver Log} {ledger : Ledger}

theorem answers (h : Follows context made resolver plain) (hledger : ledger.In context)
    (occurrences : List Reference.Occurrence) (log : Log) :
    ∃ after, after.In context ∧
      ledger.Adds after (fun visit =>
        ∃ site ∈ occurrences.filterMap Reference.Occurrence.site?, made site.1 visit) ∧
      Reference.answers resolver occurrences (log, ledger) =
        ((Reference.answers plain occurrences log).1,
          (Reference.answers plain occurrences log).2, after) := by
  induction occurrences with
  | nil =>
      refine ⟨ledger, hledger, Ledger.adds_nothing ?_, rfl⟩
      rintro visit ⟨_, hmem, -⟩
      cases hmem
  | cons occurrence rest ih =>
      obtain ⟨middle, hmiddle, hadds, heq⟩ := ih
      cases occurrence with
      | wellFormed reference span =>
          obtain ⟨after, hafter, hadds', hcall⟩ := h.resolve reference
            (Reference.answers plain rest log).2 middle hmiddle
          have hsites : (Reference.Occurrence.wellFormed reference span :: rest).filterMap
              Reference.Occurrence.site? =
                (reference, span) :: rest.filterMap Reference.Occurrence.site? := rfl
          refine ⟨after, hafter, (hadds.trans hadds').congr fun visit => ?_, ?_⟩
          · rw [hsites, or_comm]
            simp only [List.mem_cons, exists_eq_or_imp]
          · rw [Reference.answers_wellFormed, Reference.answers_wellFormed, heq, hcall]
      | malformed fault span =>
          refine ⟨middle, hmiddle, hadds, ?_⟩
          rw [Reference.answers_malformed, Reference.answers_malformed, heq, h.report]

theorem substitute (h : Follows context made resolver plain) (hledger : ledger.In context)
    (source : Text) (tokens : List Token) (log : Log) :
    ∃ after, after.In context ∧
      ledger.Adds after (fun visit => ∃ site ∈ Reference.sites tokens, made site.1 visit) ∧
      Reference.substitute resolver source tokens (log, ledger) =
        ((Reference.substitute plain source tokens log).1,
          (Reference.substitute plain source tokens log).2, after) := by
  obtain ⟨after, hafter, hadds, heq⟩ := h.answers hledger (Reference.occurrences tokens) log
  refine ⟨after, hafter, hadds, ?_⟩
  rw [Reference.substitute_eq_spliceAll, Reference.substitute_eq_spliceAll, heq]

/-- **A run follows** when its resolver does, and makes the calls for the references in its
formula. -/
theorem ofDocument (h : Follows context made resolver plain) (hledger : ledger.In context)
    (screenings : Option ScreeningRegistry) (config : Config) (document : Text) :
    ∃ after, after.In context ∧
      ledger.Adds after (fun visit => ∃ reference ∈ Run.references config document,
        made reference visit) ∧
      Run.ofDocumentIn resolver screenings config document ledger =
        (Run.ofDocument plain screenings config document, after) := by
  have hnothing : ∀ visit, ¬ ∃ reference ∈ ([] : List Reference), made reference visit := by
    rintro visit ⟨_, hmem, -⟩
    cases hmem
  rw [Run.ofDocumentIn, Run.ofDocument, Run.references]
  cases Block.locate config.startPhrase (Block.mendPhrase document) with
  | noPhrase => exact ⟨ledger, hledger, Ledger.adds_nothing hnothing, rfl⟩
  | flawed flaw => exact ⟨ledger, hledger, Ledger.adds_nothing hnothing, rfl⟩
  | formula raw =>
      simp only [Run.ofFormula, Stage.inline, Stage.references]
      by_cases hmention : Reference.mentionedIn (Stage.clean config raw).source = true
      · obtain ⟨after, hafter, hadds, heq⟩ := h.substitute hledger
          (Stage.clean config raw).source (Stage.clean config raw).tokens .empty
        refine ⟨after, hafter, hadds.congr fun visit => ?_, ?_⟩
        · rw [if_pos hmention]
          simp only [List.mem_map, exists_exists_and_eq_and]
        · rw [if_pos hmention, if_pos hmention, heq]
      · rw [if_neg hmention, if_neg hmention, if_neg hmention]
        exact ⟨ledger, hledger, Ledger.adds_nothing hnothing, rfl⟩

end Follows

/-! ### Calls within each other -/

/-- The calls for one reference. -/
def madeFor (registries : Registries) (config : Config) (context : Context)
    (reference : Reference) : Visit → Prop :=
  Makes registries config context reference.kpi

/-- One call follows `resolve` when the calls inside it do. -/
theorem follows_resolverOnce {inner : Option (Reference.Resolver (Log × Ledger))}
    (hvalid : context.Valid registries)
    (hinner : ∀ id document, id ∉ context.stack → registries.lookupKpi id = some document →
      ∃ next, inner = some next ∧
        Follows (context.push id) (madeFor registries config.nested (context.push id)) next
          (resolver registries config.nested (context.stack ++ [id]))) :
    Follows context (madeFor registries config.nested context)
      (resolverOnce registries config inner) (resolver registries config context.stack) := by
  refine ⟨?_, fun _ _ _ => rfl⟩
  intro reference log ledger hledger
  -- the call itself is put down when it is over
  suffices hanswer : ∃ after, after.In context ∧
      ledger.Adds after (fun visit => reference.kpi ∉ context.stack ∧
        ∃ other, registries.Refers config.nested reference.kpi other ∧
          Makes registries config.nested (context.push reference.kpi) other visit) ∧
      answerWithin registries config inner reference log ledger =
        ((resolve registries config context.stack reference log).1,
          (resolve registries config context.stack reference log).2, after) by
    obtain ⟨after, hafter, hadds, heq⟩ := hanswer
    refine ⟨after.close reference.kpi context, hafter.close reference.kpi context,
      (hadds.close reference.kpi context).congr fun visit => ?_, ?_⟩
    · rw [hafter.context_eq]
      exact makes_iff.symm
    · simp only [resolverOnce, heq, hledger.context_eq]
      rfl
  rw [answerWithin, hledger.context_eq]
  by_cases hmem : reference.kpi ∈ context.stack
  · rw [if_pos (hvalid.mem_members_iff.mpr hmem), resolve_of_mem config log hmem]
    exact ⟨ledger, hledger, Ledger.adds_nothing fun _ h => h.1 hmem, rfl⟩
  have hnew : reference.kpi ∉ context.members := fun h => hmem (hvalid.mem_members_iff.mp h)
  rw [if_neg hnew]
  cases hlookup : registries.lookupKpi reference.kpi with
  | none =>
      rw [resolve_of_lookupKpi_eq_none config log hmem hlookup]
      refine ⟨ledger, hledger, Ledger.adds_nothing ?_, rfl⟩
      rintro visit ⟨-, other, hrefers, -⟩
      exact Registries.not_refers hlookup hrefers
  | some document =>
      obtain ⟨next, rfl, hnext⟩ := hinner reference.kpi document hmem hlookup
      obtain ⟨after, hafter, hadds, heq⟩ := hnext.ofDocument (hledger.enter reference.kpi)
        registries.screenings config.nested document
      refine ⟨after.leave, hafter.leave hnew, ?_, ?_⟩
      · have hleft : ledger.Adds after.leave _ := hadds
        refine hleft.congr fun visit => ?_
        rw [Registries.exists_refers_iff hlookup]
        exact (and_iff_right hmem).symm
      · rw [resolve_of_lookupKpi config log hmem hlookup]
        simp only [heq]

/-- **With room for every id that is left**, calls within each other follow `resolve`. -/
theorem follows_resolverWithin {bound : Nat} (config : Config) (hvalid : context.Valid registries)
    (hbound : registries.ids.card ≤ context.depth + bound) :
    Follows context (madeFor registries config.nested context)
      (resolverWithin registries config bound) (resolver registries config context.stack) := by
  induction bound generalizing config context with
  | zero =>
      refine follows_resolverOnce hvalid fun id document hnew hlookup => ?_
      -- another id on the context would be one more than there are
      have hdepth := (hvalid.push (Registries.mem_ids_of_lookupKpi hlookup) hnew).depth_le
      rw [Context.depth_push] at hdepth
      exact absurd hdepth (Nat.not_le.mpr (Nat.lt_succ_of_le hbound))
  | succ bound ih =>
      refine follows_resolverOnce hvalid fun id document hnew hlookup => ?_
      have hpushed := hvalid.push (Registries.mem_ids_of_lookupKpi hlookup) hnew
      refine ⟨_, rfl, ih config.nested hpushed ?_⟩
      rw [Context.depth_push, Nat.add_right_comm]
      exact hbound

/-- **Runs end.**  A run that may nest as deep as there are ids registered, or deeper, is never
cut short, and gives what `run` gives.  The calls in it are those for the references in its
formula, and those inside them.  Each leaves the context as it was; the ids that are being
resolved when it is made are distinct and registered, and so are those that are being resolved
while it runs a document, so the nesting is no deeper than there are ids. -/
theorem runWithin_eq (registries : Registries) (config : Config) (document : Text) (spare : Nat) :
    let (result, ledger) := runWithin registries config (registries.ids.card + spare) document
    result = run registries config document ∧ ledger.exhausted = false ∧
      ledger.context = .empty ∧
      (∀ visit, visit ∈ ledger.visits ↔ ∃ reference ∈ Run.references config document,
        Makes registries config.nested .empty reference.kpi visit) ∧
      ∀ visit ∈ ledger.visits, visit.after = visit.before ∧ visit.before.Valid registries ∧
        visit.before.depth ≤ registries.ids.card ∧
        (visit.kpi ∈ registries.ids → visit.kpi ∉ visit.before.stack →
          (visit.before.push visit.kpi).Valid registries ∧
            visit.before.depth + 1 ≤ registries.ids.card) := by
  have hempty := Context.valid_empty registries
  have hbound : registries.ids.card ≤ Context.empty.depth + (registries.ids.card + spare) :=
    Nat.le_trans (Nat.le_add_right _ spare) (Nat.le_add_left _ _)
  have hledger : Ledger.empty.In .empty := ⟨rfl, rfl⟩
  obtain ⟨after, hafter, hadds, heq⟩ := (follows_resolverWithin config hempty hbound).ofDocument
    hledger registries.screenings config document
  have hvisits : ∀ visit, visit ∈ after.visits ↔ ∃ reference ∈ Run.references config document,
      Makes registries config.nested .empty reference.kpi visit := by
    intro visit
    exact (hadds visit).trans (or_iff_right List.not_mem_nil)
  rw [runWithin, heq]
  refine ⟨rfl, hafter.complete, hafter.context_eq, hvisits, ?_⟩
  intro visit hvisit
  obtain ⟨reference, -, hmakes⟩ := (hvisits visit).mp hvisit
  have hvalid := hmakes.valid hempty
  refine ⟨hmakes.restores, hvalid, hvalid.depth_le, ?_⟩
  intro hregistered hnew
  have hpushed := hvalid.push hregistered hnew
  have hdepth := hpushed.depth_le
  rw [Context.depth_push] at hdepth
  exact ⟨hpushed, hdepth⟩

end CounterFormula
