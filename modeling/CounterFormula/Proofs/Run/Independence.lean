import CounterFormula.Proofs.Run.References

/-!
# Run — Independence

How far the answer to a reference depends on the KPIs that are being resolved when it is asked for.
They are looked at in two places: a reference to one of them is not followed, and the fault that
says so shows all of them.  `Meets` says which KPIs a reference leads to on the way.

Two runs are *alike* when they differ in nothing but the chains that such faults show (and in what
their observers have seen).  Whether a run has faults at all decides what is made of it, so the
faults are compared one by one and not left out.

* `resolve_append`: KPIs under way that are not met change nothing but the chains.
* `resolve_eq_expandReference`: a reference that leads to none of them is answered as on its own,
  and pass 1 of a run puts in what the references stand for on their own.
-/

namespace CounterFormula

/-- `Meets registries config chain id met`: resolving a reference to `id`, while the KPIs on
`chain` are being resolved, comes to a reference to `met`, at some depth. -/
inductive Meets (registries : Registries) (config : Config) : List Text → Text → Text → Prop where
  | itself {chain : List Text} {id : Text} : Meets registries config chain id id
  | inside {chain : List Text} {id other met : Text} (hnew : id ∉ chain)
      (hrefers : registries.Refers config id other)
      (hmeets : Meets registries config (chain ++ [id]) other met) :
      Meets registries config chain id met

/-! ### Faults without chains -/

/-- The fault without the KPIs that were being resolved. -/
def ReferenceFault.unchained : ReferenceFault → ReferenceFault
  | .cyclic _ kpi => .cyclic [] kpi
  | fault => fault

def Fault.unchained : Fault → Fault
  | .reference fault => .reference fault.unchained
  | fault => fault

theorem Fault.severity_unchained (mode : Mode) (fault : Fault) :
    fault.unchained.severity mode = fault.severity mode := by
  cases fault <;> rfl

/-- The outcome without the chains that its faults show. -/
def Outcome.unchained (outcome : Outcome) : Outcome :=
  { outcome with faults := outcome.faults.map Fault.unchained }

/-- The same faults in both logs, but for the chains. -/
def Log.Alike (log other : Log) : Prop :=
  log.faults.map ReferenceFault.unchained = other.faults.map ReferenceFault.unchained

/-- The same text and faults in both stages, but for the chains. -/
structure Stage.Alike (stage other : Stage) : Prop where
  source_eq : stage.source = other.source
  tokens_eq : stage.tokens = other.tokens
  faults_eq : stage.faults.map Fault.unchained = other.faults.map Fault.unchained

theorem Stage.Alike.refl (stage : Stage) : stage.Alike stage := ⟨rfl, rfl, rfl⟩

namespace Log

theorem Alike.refl (log : Log) : log.Alike log := Eq.refl _

variable {log other : Log}

theorem Alike.report (h : log.Alike other) {fault found : ReferenceFault}
    (hfault : fault.unchained = found.unchained) :
    (log.report fault).Alike (other.report found) := by
  rw [Alike, Log.report, Log.report, List.map_append, List.map_append, h, List.map_singleton,
    List.map_singleton, hfault]

theorem Alike.watch (h : log.Alike other) (events seen : List Event) :
    (log.watch events).Alike (other.watch seen) := h

end Log

/-! ### Resolvers -/

namespace Reference

/-- Both resolvers answer alike the references that `asked` holds of. -/
structure Resolver.Alike (asked : Reference → Prop) (resolver other : Resolver Log) : Prop where
  resolve : ∀ reference, asked reference → ∀ log log' : Log, log.Alike log' →
    (resolver.resolve reference log).1 = (other.resolve reference log').1 ∧
      (resolver.resolve reference log).2.Alike (other.resolve reference log').2
  report : ∀ fault (log log' : Log), log.Alike log' →
    (resolver.report fault log).Alike (other.report fault log')

variable {asked : Reference → Prop} {resolver other : Resolver Log} {log log' : Log}

theorem Resolver.Alike.answers (h : resolver.Alike asked other) {occurrences : List Occurrence}
    (hasked : ∀ site ∈ occurrences.filterMap Occurrence.site?, asked site.1)
    (hlog : log.Alike log') :
    (answers resolver occurrences log).1 = (answers other occurrences log').1 ∧
      (answers resolver occurrences log).2.Alike (answers other occurrences log').2 := by
  induction occurrences with
  | nil => exact ⟨rfl, hlog⟩
  | cons occurrence rest ih =>
      cases occurrence with
      | wellFormed reference span =>
          obtain ⟨hfirst, hmore⟩ := List.forall_mem_cons.mp hasked
          obtain ⟨hpatches, hrest⟩ := ih hmore
          obtain ⟨htext, hnext⟩ := h.resolve reference hfirst _ _ hrest
          rw [answers_wellFormed, answers_wellFormed, hpatches, htext]
          exact ⟨rfl, hnext⟩
      | malformed fault span =>
          obtain ⟨hpatches, hrest⟩ := ih hasked
          rw [answers_malformed, answers_malformed, hpatches]
          exact ⟨rfl, h.report fault _ _ hrest⟩

theorem Resolver.Alike.substitute (h : resolver.Alike asked other) {tokens : List Token}
    (hasked : ∀ site ∈ sites tokens, asked site.1) (source : Text) (hlog : log.Alike log') :
    (substitute resolver source tokens log).1 = (substitute other source tokens log').1 ∧
      (substitute resolver source tokens log).2.Alike (substitute other source tokens log').2 := by
  obtain ⟨hpatches, hnext⟩ := h.answers hasked hlog
  rw [substitute_eq_spliceAll, substitute_eq_spliceAll, hpatches]
  exact ⟨rfl, hnext⟩

end Reference

/-! ### Runs -/

theorem Stage.inline_alike {asked : Reference → Prop} {resolver other : Reference.Resolver Log}
    (h : resolver.Alike asked other) (config : Config) {stage : Stage}
    (hasked : ∀ reference ∈ stage.references, asked reference) :
    (stage.inline config resolver).Alike (stage.inline config other) := by
  rw [references] at hasked
  rw [inline, inline]
  by_cases hmention : Reference.mentionedIn stage.source = true
  · rw [if_pos hmention] at hasked ⊢
    rw [if_pos hmention]
    obtain ⟨htext, hlog⟩ := h.substitute
      (fun site hsite => hasked site.1 (List.mem_map_of_mem hsite)) stage.source
      (Log.Alike.refl .empty)
    refine ⟨htext, congrArg (fun text => (lex config.mode text).body) htext, ?_⟩
    have hfaults := congrArg (List.map Fault.reference) hlog
    rw [List.map_map, List.map_map] at hfaults
    simp only [reachInlined, reach, List.map_append, List.map_map, htext]
    exact congrArg (· ++ _) hfaults
  · rw [if_neg hmention, if_neg hmention]
    exact .refl _

namespace Run

/-- After pass 1, runs that are alike stay alike. -/
theorem unchained_ofInlined {screenings : Option ScreeningRegistry} {config : Config} {raw : Text}
    {cleaned inlined other : Stage} (h : inlined.Alike other) :
    (ofInlined screenings config raw cleaned inlined).outcome.unchained =
      (ofInlined screenings config raw cleaned other).outcome.unchained := by
  obtain ⟨source, tokens, faults, inner⟩ := inlined
  obtain ⟨source', tokens', faults', inner'⟩ := other
  obtain ⟨hsource, htokens, hfaults⟩ := h
  dsimp only at hsource htokens hfaults
  subst hsource htokens
  have hseverities : faults.map (Fault.severity config.mode) =
      faults'.map (Fault.severity config.mode) := by
    have := congrArg (List.map (Fault.severity config.mode)) hfaults
    simpa only [List.map_map, Function.comp_def, Fault.severity_unchained] using this
  simp only [ofInlined_eq, Stage.assign, Outcome.unchained, List.map_append, hfaults, hseverities]

theorem unchained_ofDocument {asked : Reference → Prop} {resolver other : Reference.Resolver Log}
    (h : resolver.Alike asked other) (screenings : Option ScreeningRegistry) {config : Config}
    {document : Text} (hasked : ∀ reference ∈ references config document, asked reference) :
    (ofDocument resolver screenings config document).outcome.unchained =
      (ofDocument other screenings config document).outcome.unchained := by
  rw [references] at hasked
  rw [ofDocument, ofDocument]
  cases hlocate : Block.locate config.startPhrase (Block.mendPhrase document) with
  | noPhrase => rfl
  | flawed flaw => rfl
  | formula raw =>
      rw [hlocate] at hasked
      exact unchained_ofInlined (Stage.inline_alike h config hasked)

/-- What is made of a run does not depend on the chains that its faults show. -/
theorem answer_alike {run other : Run} (h : run.outcome.unchained = other.outcome.unchained)
    (reference : Reference) {log log' : Log} (hlog : log.Alike log') :
    (run.answer reference log).1 = (other.answer reference log').1 ∧
      (run.answer reference log).2.Alike (other.answer reference log').2 := by
  have hblock : run.outcome.block = other.outcome.block := by
    simpa only [Outcome.unchained] using congrArg Outcome.block h
  have hraw : run.outcome.raw = other.outcome.raw := by
    rw [Outcome.raw, Outcome.raw, hblock]
  have htext : run.textFor reference = other.textFor reference := by
    rw [textFor, textFor]
    cases reference.wanted with
    | none => simpa only [Outcome.unchained] using congrArg Outcome.expanded h
    | some name =>
        have hvalues : run.outcome.values = other.outcome.values := by
          simpa only [Outcome.unchained] using congrArg Outcome.values h
        simp only [Outcome.variableSource, hvalues]
  have hfaults : run.outcome.faults.isEmpty = other.outcome.faults.isEmpty := by
    have := congrArg (fun outcome => outcome.faults.isEmpty) h
    simpa only [Outcome.unchained, List.isEmpty_map] using this
  have hwatched := hlog.watch run.events other.events
  rw [answer, answer, hraw, hfaults, htext, hblock]
  split
  · exact ⟨rfl, hwatched.report rfl⟩
  · split
    · exact ⟨rfl, hwatched⟩
    · exact ⟨rfl, hwatched.report rfl⟩

/-- A run made for a reference adds to the log, whatever is in it. -/
theorem answer_eq (run : Run) (reference : Reference) (log : Log) :
    (run.answer reference log).1 = (run.answer reference .empty).1 ∧
      (run.answer reference log).2.faults =
        log.faults ++ (run.answer reference .empty).2.faults := by
  rw [answer, answer]
  split
  · exact ⟨rfl, rfl⟩
  · split
    · exact ⟨rfl, (List.append_nil _).symm⟩
    · exact ⟨rfl, rfl⟩

end Run

/-! ### References -/

variable {registries : Registries} {config : Config}

theorem resolver_alike {chain other : List Text} {asked : Reference → Prop}
    (h : ∀ reference, asked reference → ∀ log log' : Log, log.Alike log' →
      (resolve registries config chain reference log).1 =
          (resolve registries config other reference log').1 ∧
        (resolve registries config chain reference log).2.Alike
          (resolve registries config other reference log').2) :
    (resolver registries config chain).Alike asked (resolver registries config other) :=
  ⟨h, fun _ _ _ hlog => hlog.report rfl⟩

/-- **KPIs under way that are not met** change nothing but the chains that faults show. -/
theorem resolve_append {base : List Text} (chain : List Text) {reference : Reference}
    (h : ∀ met, Meets registries config.nested (base ++ chain) reference.kpi met → met ∉ base)
    {log log' : Log} (hlog : log.Alike log') :
    (resolve registries config (base ++ chain) reference log).1 =
        (resolve registries config chain reference log').1 ∧
      (resolve registries config (base ++ chain) reference log).2.Alike
        (resolve registries config chain reference log').2 := by
  induction hunder : base ++ chain using registries.chain_induction
    generalizing config chain reference log log' with
  | extend under ih =>
      subst hunder
      have hbase : reference.kpi ∉ base := h _ .itself
      by_cases hmem : reference.kpi ∈ chain
      · rw [resolve_of_mem config log (List.mem_append_right base hmem),
          resolve_of_mem config log' hmem]
        exact ⟨rfl, hlog.report rfl⟩
      have hnew : reference.kpi ∉ base ++ chain := by
        rw [List.mem_append]
        exact not_or.mpr ⟨hbase, hmem⟩
      cases hlookup : registries.lookupKpi reference.kpi with
      | none =>
          rw [resolve_of_lookupKpi_eq_none config log hnew hlookup,
            resolve_of_lookupKpi_eq_none config log' hmem hlookup]
          exact ⟨rfl, hlog.report rfl⟩
      | some document =>
          have halike :
              (resolver registries config.nested (base ++ chain ++ [reference.kpi])).Alike
              (fun inner => inner ∈ Run.references config.nested document)
              (resolver registries config.nested (chain ++ [reference.kpi])) := by
            refine resolver_alike fun inner hinner log log' hlog =>
              ih _ document hnew hlookup _ ?_ hlog (List.append_assoc base chain _).symm
            intro met hmeets
            refine h met (.inside hnew (Registries.refers_of_mem hlookup hinner) ?_)
            rwa [Config.nested_nested, ← List.append_assoc] at hmeets
          have hruns := Run.unchained_ofDocument halike registries.screenings fun _ hinner => hinner
          rw [resolve_of_lookupKpi config log hnew hlookup,
            resolve_of_lookupKpi config log' hmem hlookup]
          exact Run.answer_alike hruns reference hlog

/-- The answer to a reference adds to the log, whatever is in it. -/
theorem resolve_eq (registries : Registries) (config : Config) (chain : List Text)
    (reference : Reference) (log : Log) :
    (resolve registries config chain reference log).1 =
        (resolve registries config chain reference .empty).1 ∧
      (resolve registries config chain reference log).2.faults =
        log.faults ++ (resolve registries config chain reference .empty).2.faults := by
  by_cases hmem : reference.kpi ∈ chain
  · rw [resolve_of_mem config log hmem, resolve_of_mem config .empty hmem]
    exact ⟨rfl, rfl⟩
  cases hlookup : registries.lookupKpi reference.kpi with
  | none =>
      rw [resolve_of_lookupKpi_eq_none config log hmem hlookup,
        resolve_of_lookupKpi_eq_none config .empty hmem hlookup]
      exact ⟨rfl, rfl⟩
  | some document =>
      rw [resolve_of_lookupKpi config log hmem hlookup,
        resolve_of_lookupKpi config .empty hmem hlookup]
      exact Run.answer_eq _ reference log

/-- The faults of a reference to a KPI that is not under way show no chain. -/
theorem unchained_faults_resolve {chain : List Text} {reference : Reference}
    (h : reference.kpi ∉ chain) :
    (resolve registries config chain reference .empty).2.faults.map ReferenceFault.unchained =
      (resolve registries config chain reference .empty).2.faults := by
  cases hlookup : registries.lookupKpi reference.kpi with
  | none => rw [resolve_of_lookupKpi_eq_none config .empty h hlookup]; rfl
  | some document =>
      rw [resolve_of_lookupKpi config .empty h hlookup, Run.answer]
      split
      · rfl
      · split <;> rfl

/-! ### References on their own -/

/-- The resolver that answers a reference by what it stands for on its own, and only collects
faults. -/
def expanding (registries : Registries) (config : Config) :
    Reference.Resolver (List ReferenceFault) where
  resolve reference faults :=
    let expansion := expandReference registries config reference
    (expansion.text, faults ++ expansion.faults)
  report fault faults := faults ++ [fault]

theorem answers_resolver_nil (registries : Registries) (config : Config)
    (occurrences : List Reference.Occurrence) (log : Log) :
    (Reference.answers (resolver registries config []) occurrences log).1 =
        (Reference.answers (expanding registries config) occurrences log.faults).1 ∧
      (Reference.answers (resolver registries config []) occurrences log).2.faults =
        (Reference.answers (expanding registries config) occurrences log.faults).2 := by
  induction occurrences with
  | nil => exact ⟨rfl, rfl⟩
  | cons occurrence rest ih =>
      obtain ⟨hpatches, hfaults⟩ := ih
      cases occurrence with
      | wellFormed reference span =>
          obtain ⟨htext, hadds⟩ := resolve_eq registries config [] reference
            (Reference.answers (resolver registries config []) rest log).2
          rw [Reference.answers_wellFormed, Reference.answers_wellFormed, hpatches, ← hfaults]
          exact ⟨congrArg (fun text => (span, text) :: _) htext, hadds⟩
      | malformed fault span =>
          rw [Reference.answers_malformed, Reference.answers_malformed, hpatches, ← hfaults]
          exact ⟨rfl, rfl⟩

theorem substitute_resolver_nil (source : Text) (tokens : List Token) (log : Log) :
    Reference.substitute (expanding registries config) source tokens log.faults =
      ((Reference.substitute (resolver registries config []) source tokens log).1,
        (Reference.substitute (resolver registries config []) source tokens log).2.faults) := by
  obtain ⟨hpatches, hfaults⟩ := answers_resolver_nil registries config
    (Reference.occurrences tokens) log
  rw [Reference.substitute_eq_spliceAll, Reference.substitute_eq_spliceAll, hpatches, hfaults]

/-- The fault of a reference. -/
def Fault.reference? : Fault → Option ReferenceFault
  | .reference fault => some fault
  | _ => none

/-- Only pass 1 of a run finds faults of references. -/
theorem Run.reference?_faults_ofInlined (screenings : Option ScreeningRegistry) (config : Config)
    (raw : Text) (inlined : Stage) :
    (ofInlined screenings config raw (Stage.clean config raw) inlined).outcome.faults.filterMap
        Fault.reference? =
      inlined.faults.filterMap Fault.reference? := by
  have hcleaned : (Stage.clean config raw).faults.filterMap Fault.reference? = [] := by
    rw [Stage.clean, Stage.reach]
    split <;> simp [List.filterMap_map, Function.comp_def, Fault.reference?]
  simp [ofInlined_eq, Stage.assign, Stage.sum, Stage.reach, hcleaned, List.filterMap_append,
    List.filterMap_map, Function.comp_def, Fault.reference?]

theorem Stage.reference?_faults_reachInlined (config : Config) (source : Text) (log : Log) :
    (reachInlined config source log).faults.filterMap Fault.reference? = log.faults := by
  simp [reachInlined, reach, List.filterMap_append, List.filterMap_map, Function.comp_def,
    Fault.reference?]

/-- **References are answered as on their own.**  While KPIs are being resolved, a reference that
leads to none of them gives the text and the faults that it has outside of any formula.  So pass 1
of a run puts in, for every reference of the cleaned formula, what that reference stands for on its
own, and the faults of references that the run shows are those of its references on their own. -/
theorem resolve_eq_expandReference (registries : Registries) (config : Config) :
    (∀ chain reference log,
      (∀ met, Meets registries config.nested chain reference.kpi met → met ∉ chain) →
        (resolve registries config chain reference log).1 =
            (expandReference registries config reference).text ∧
          (resolve registries config chain reference log).2.faults =
            log.faults ++ (expandReference registries config reference).faults) ∧
      ∀ document,
        let outcome := (run registries config document).outcome
        Reference.mentionedIn outcome.cleaned = true →
          Reference.substitute (expanding registries config) outcome.cleaned
              (lex config.mode outcome.cleaned).body [] =
            (outcome.inlined, outcome.faults.filterMap Fault.reference?) := by
  refine ⟨?_, ?_⟩
  · intro chain reference log h
    have hnew : reference.kpi ∉ chain := h _ .itself
    obtain ⟨htext, hfaults⟩ := resolve_eq registries config chain reference log
    have h' : ∀ met, Meets registries config.nested (chain ++ []) reference.kpi met →
        met ∉ chain := by rwa [List.append_nil]
    obtain ⟨htext', hlog⟩ := resolve_append [] h' (Log.Alike.refl .empty)
    rw [List.append_nil] at htext' hlog
    rw [Log.Alike, unchained_faults_resolve hnew, unchained_faults_resolve List.not_mem_nil] at hlog
    exact ⟨htext.trans htext', hfaults.trans (congrArg (log.faults ++ ·) hlog)⟩
  · intro document outcome hmention
    have hempty : Reference.mentionedIn [] ≠ true := by decide
    dsimp only [outcome, run, Run.ofDocument] at hmention ⊢
    cases hlocate : Block.locate config.startPhrase (Block.mendPhrase document) with
    | noPhrase => rw [hlocate] at hmention; exact absurd hmention hempty
    | flawed flaw => rw [hlocate] at hmention; exact absurd hmention hempty
    | formula raw =>
        rw [hlocate] at hmention
        dsimp only [Run.ofFormula] at hmention ⊢
        rw [Run.cleaned_ofInlined] at hmention ⊢
        rw [Run.inlined_ofInlined, Run.reference?_faults_ofInlined, Stage.inline, if_pos hmention,
          Stage.reference?_faults_reachInlined]
        exact substitute_resolver_nil _ _ .empty

/-- `K` and `L` refer to each other, which is a fault of `K` also while `T` is being resolved. -/
theorem resolve_eq_expandReference_of_cycle :
    let registries : Registries :=
      { kpis := some ⟨[
          (['K'], "eNB Counter Method: BEGIN 1+(Formula://EnbCounterMethod/L) END".toList),
          (['L'], "eNB Counter Method: BEGIN 2*(Formula://EnbCounterMethod/K) END".toList)]⟩
        screenings := none }
    let reference : Reference := ⟨['K'], none⟩
    let answer := resolve registries .default [['T']] reference .empty
    let expansion := expandReference registries .default reference
    let document :=
      "eNB Counter Method: BEGIN (Formula://EnbCounterMethod/L)/(Formula://EnbCounterMethod/K) END"
        |>.toList
    let outcome := (run registries .default document).outcome
    (∀ met, Meets registries Config.default.nested [['T']] reference.kpi met → met ∉ [['T']]) ∧
      answer.1 = expansion.text ∧ answer.2.faults = Log.empty.faults ++ expansion.faults ∧
      expansion.faults = [.faulty ['K']] ∧
      Reference.mentionedIn outcome.cleaned = true ∧
      Reference.substitute (expanding registries .default) outcome.cleaned
          (lex .strict outcome.cleaned).body [] =
        (outcome.inlined, outcome.faults.filterMap Fault.reference?) := by
  intro registries reference answer expansion document outcome
  have hK : ∀ other, registries.Refers Config.default.nested ['K'] other → other = ['L'] := by
    simp only [Registries.refers_iff]
    rintro other ⟨found, hlookup, inner, hinner, rfl⟩
    obtain rfl := Option.some.inj hlookup
    revert inner
    decide +kernel
  have hL : ∀ other, registries.Refers Config.default.nested ['L'] other → other = ['K'] := by
    simp only [Registries.refers_iff]
    rintro other ⟨found, hlookup, inner, hinner, rfl⟩
    obtain rfl := Option.some.inj hlookup
    revert inner
    decide +kernel
  have hmeets : ∀ met, Meets registries Config.default.nested [['T']] reference.kpi met →
      met ∉ [['T']] := by
    intro met h
    cases h with
    | itself => decide
    | inside _ hrefers h =>
        obtain rfl := hK _ hrefers
        cases h with
        | itself => decide
        | inside _ hrefers h =>
            obtain rfl := hL _ hrefers
            cases h with
            | itself => decide
            | inside hnew => exact absurd (by decide) hnew
  have hmention : Reference.mentionedIn outcome.cleaned = true := by decide +kernel
  obtain ⟨htext, hfaults⟩ := (resolve_eq_expandReference registries .default).1 [['T']] reference
    .empty hmeets
  exact ⟨hmeets, htext, hfaults, by decide +kernel, hmention,
    (resolve_eq_expandReference registries .default).2 document hmention⟩

end CounterFormula
