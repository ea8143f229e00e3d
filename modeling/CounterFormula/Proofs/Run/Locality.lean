import CounterFormula.Proofs.Run.Modes
import CounterFormula.Proofs.Run.Nesting

/-!
# Run — Locality

Which part of the KPI registry a run depends on.  A run looks a KPI up when it comes to a reference
to it, at any depth, unless the KPI is being resolved just then; the `Ledger` of the run has put
that down.  References that are not well-formed, and the documents of runs that end before pass 1,
look nothing up.

* `Run.ofDocument_congr`: one run depends on its resolver only through the references of its formula.
* `resolve_eq_of_agree`: a reference is answered alike by registries that agree on what is looked up
  for it.
* `run_eq_of_agree`: so a run is the same under every registry that agrees with its own on the KPIs
  that it has looked up.
-/

namespace CounterFormula

/-- The ids that the registry was asked for. -/
def Ledger.lookups (ledger : Ledger) : List Text :=
  (ledger.visits.filter fun visit => decide (visit.kpi ∉ visit.before.members)).map Visit.kpi

/-- The ids that the run over `document` looks up, at any depth. -/
def lookups (registries : Registries) (config : Config) (document : Text) : List Text :=
  (runWithin registries config registries.ids.card document).2.lookups

/-- `LooksUp registries config context id asked`: resolving a reference to `id` in `context` asks
the registry for `asked`. -/
def LooksUp (registries : Registries) (config : Config) (context : Context) (id asked : Text) :
    Prop :=
  ∃ visit, Makes registries config context id visit ∧ visit.kpi = asked ∧
    asked ∉ visit.before.members

variable {registries other : Registries} {config : Config} {context : Context}

/-! ### What is looked up -/

theorem mem_lookups {document id : Text} :
    id ∈ lookups registries config document ↔
      ∃ reference ∈ Run.references config document,
        LooksUp registries config.nested .empty reference.kpi id := by
  have hbound : registries.ids.card ≤ Context.empty.depth + registries.ids.card :=
    Nat.le_add_left _ _
  obtain ⟨after, -, hadds, heq⟩ :=
    (follows_resolverWithin config (Context.valid_empty registries) hbound).ofDocument
      (⟨rfl, rfl⟩ : Ledger.empty.In .empty) registries.screenings config document
  have hvisits : ∀ visit, visit ∈ after.visits ↔ ∃ reference ∈ Run.references config document,
      Makes registries config.nested .empty reference.kpi visit := fun visit =>
    (hadds visit).trans (or_iff_right List.not_mem_nil)
  rw [lookups, runWithin, heq, Ledger.lookups]
  simp only [List.mem_map, List.mem_filter, hvisits, decide_eq_true_eq]
  constructor
  · rintro ⟨visit, ⟨⟨reference, hmem, hmakes⟩, hasked⟩, rfl⟩
    exact ⟨reference, hmem, visit, hmakes, rfl, hasked⟩
  · rintro ⟨reference, hmem, visit, hmakes, rfl, hasked⟩
    exact ⟨visit, ⟨⟨reference, hmem, hmakes⟩, hasked⟩, rfl⟩

/-- A KPI that is not being resolved is looked up first. -/
theorem LooksUp.itself {id : Text} (hnew : id ∉ context.members) :
    LooksUp registries config context id id :=
  ⟨_, .itself context id, rfl, hnew⟩

/-- Then what its document refers to. -/
theorem LooksUp.inside {id next asked : Text} (hnew : id ∉ context.stack)
    (hrefers : registries.Refers config id next)
    (h : LooksUp registries config (context.push id) next asked) :
    LooksUp registries config context id asked := by
  obtain ⟨visit, hmakes, hasked⟩ := h
  exact ⟨visit, .inside hnew hrefers hmakes, hasked⟩

/-! ### One run -/

/-- Pass 1 depends on the resolver only through the references that it replaces. -/
theorem Stage.inline_congr {resolver resolver' : Reference.Resolver Log} {stage : Stage}
    (hreport : resolver.report = resolver'.report)
    (h : ∀ reference ∈ stage.references, resolver.resolve reference = resolver'.resolve reference)
    (config : Config) : stage.inline config resolver = stage.inline config resolver' := by
  rw [references] at h
  rw [inline, inline]
  by_cases hmention : Reference.mentionedIn stage.source = true
  · rw [if_pos hmention] at h ⊢
    rw [if_pos hmention]
    have hanswers := Reference.answers_congr hreport
      (fun site hsite => h site.1 (List.mem_map_of_mem hsite)) Log.empty
    rw [Reference.substitute_eq_spliceAll, Reference.substitute_eq_spliceAll, hanswers]
  · rw [if_neg hmention, if_neg hmention]

/-- **One run** depends on its resolver only through the references of its formula. -/
theorem Run.ofDocument_congr {resolver resolver' : Reference.Resolver Log} {document : Text}
    (hreport : resolver.report = resolver'.report)
    (h : ∀ reference ∈ references config document,
      resolver.resolve reference = resolver'.resolve reference)
    (screenings : Option ScreeningRegistry) :
    ofDocument resolver screenings config document =
      ofDocument resolver' screenings config document := by
  rw [references] at h
  rw [ofDocument, ofDocument]
  cases hlocate : Block.locate config.startPhrase (Block.mendPhrase document) with
  | noPhrase => rfl
  | flawed flaw => rfl
  | formula raw =>
      rw [hlocate] at h
      dsimp only [ofFormula]
      rw [Stage.inline_congr hreport h]

/-! ### Registries that agree -/

/-- **A reference** is answered alike by registries that agree on what is looked up for it. -/
theorem resolve_eq_of_agree (hscreenings : other.screenings = registries.screenings)
    (hvalid : context.Valid registries) {reference : Reference}
    (h : ∀ id, LooksUp registries config.nested context reference.kpi id →
      other.lookupKpi id = registries.lookupKpi id) :
    resolve other config context.stack reference =
      resolve registries config context.stack reference := by
  induction hchain : context.stack using registries.chain_induction
    generalizing context config reference with
  | extend chain ih =>
      subst hchain
      funext log
      by_cases hmem : reference.kpi ∈ context.stack
      · rw [resolve_of_mem config log hmem, resolve_of_mem config log hmem]
      have hnew : reference.kpi ∉ context.members := fun h => hmem (hvalid.mem_members_iff.mp h)
      have hagree := h reference.kpi (.itself hnew)
      cases hlookup : registries.lookupKpi reference.kpi with
      | none =>
          rw [hlookup] at hagree
          rw [resolve_of_lookupKpi_eq_none config log hmem hagree,
            resolve_of_lookupKpi_eq_none config log hmem hlookup]
      | some document =>
          rw [hlookup] at hagree
          have hpushed := hvalid.push (Registries.mem_ids_of_lookupKpi hlookup) hmem
          -- what is looked up inside is looked up for this reference
          have hinside : ∀ inner ∈ Run.references config.nested document,
              resolve other config.nested (context.push reference.kpi).stack inner =
                resolve registries config.nested (context.push reference.kpi).stack inner := by
            intro inner hinner
            refine ih _ document hmem hlookup hpushed (fun id hid => ?_) rfl
            exact h id (.inside hmem (Registries.refers_of_mem hlookup hinner) hid)
          have hrun : Run.ofDocument (resolver other config.nested (context.push reference.kpi).stack)
              registries.screenings config.nested document =
                Run.ofDocument (resolver registries config.nested (context.push reference.kpi).stack)
                  registries.screenings config.nested document :=
            Run.ofDocument_congr (by rfl) hinside registries.screenings
          rw [resolve_of_lookupKpi config log hmem hagree,
            resolve_of_lookupKpi config log hmem hlookup, hscreenings]
          exact congrArg (fun run => run.answer reference log) hrun

theorem run_eq_of_lookups {document : Text} (hscreenings : other.screenings = registries.screenings)
    (h : ∀ id ∈ lookups registries config document,
      other.lookupKpi id = registries.lookupKpi id) :
    run other config document = run registries config document := by
  rw [run, run, hscreenings]
  refine Run.ofDocument_congr (by rfl) (fun reference hreference => ?_) registries.screenings
  refine resolve_eq_of_agree hscreenings (Context.valid_empty registries) fun id hid => ?_
  exact h id (mem_lookups.mpr ⟨reference, hreference, hid⟩)

/-! ### KPIs put in -/

/-- Putting a KPI in changes what is known of no other. -/
theorem KpiRegistry.lookup_insert_of_ne (registry : KpiRegistry) {id asked : Text}
    (h : asked ≠ id) (definition : Text) :
    (registry.insert id definition).lookup asked = registry.lookup asked := by
  have hne : (asked == id) = false := beq_eq_false_iff_ne.mpr h
  rw [insert]
  split
  · clear * - hne
    rw [lookup, lookup]
    induction registry.entries with
    | nil => rfl
    | cons entry rest ih =>
        obtain ⟨key, document⟩ := entry
        rw [List.map_cons, List.lookup_cons, List.lookup_cons, ih]
        by_cases hkey : key = id
        · rw [if_pos hkey, hkey, hne]
        · rw [if_neg hkey]
  · rw [lookup, List.lookup_append, List.lookup_cons, hne]
    exact Option.or_none

theorem Registries.lookupKpi_insertKpi_of_ne (registries : Registries) {id asked : Text}
    (h : asked ≠ id) (definition : Text) :
    (registries.insertKpi id definition).lookupKpi asked = registries.lookupKpi asked := by
  have hlookup := (registries.kpis.getD .empty).lookup_insert_of_ne h definition
  rw [lookupKpi, insertKpi, Option.bind_some, hlookup, lookupKpi]
  cases registries.kpis <;> rfl

/-- **Locality.**  A run is the same, in its outcome and in what it shows, under every KPI registry
that agrees with its own on the KPIs that it has looked up.  So a KPI that it has not looked up may
be put in, or have its document replaced. -/
theorem run_eq_of_agree (registries : Registries) (config : Config) (document : Text) :
    (∀ kpis : Option KpiRegistry,
      (∀ id ∈ lookups registries config document,
        { registries with kpis := kpis }.lookupKpi id = registries.lookupKpi id) →
      run { registries with kpis := kpis } config document = run registries config document) ∧
    ∀ id definition, id ∉ lookups registries config document →
      run (registries.insertKpi id definition) config document =
        run registries config document := by
  refine ⟨fun kpis h => run_eq_of_lookups rfl h, fun id definition hid => ?_⟩
  refine run_eq_of_lookups rfl fun asked hasked => ?_
  exact registries.lookupKpi_insertKpi_of_ne (ne_of_mem_of_not_mem hasked hid) definition

/-- `K` and `L` refer to each other, and `L` to `U` as well, which is not registered.  The other
registry has no `M`, which no reference leads to. -/
theorem run_eq_of_agree_of_cycle :
    let refersTo (ids : List String) : Text :=
      "eNB Counter Method: BEGIN 1".toList ++
        (ids.flatMap fun id => s!"+(Formula://EnbCounterMethod/{id})".toList) ++ " END".toList
    let K : Text × Text := (['K'], refersTo ["L"])
    let L : Text × Text := (['L'], refersTo ["K", "U"])
    let M : Text × Text := (['M'], refersTo ["K"])
    let registries : Registries := { kpis := some ⟨[K, L, M]⟩, screenings := none }
    let kpis : Option KpiRegistry := some ⟨[L, K]⟩
    let document := refersTo ["K"]
    lookups registries .default document = [['U'], ['L'], ['K']] ∧
      (∀ id ∈ lookups registries .default document,
        { registries with kpis := kpis }.lookupKpi id = registries.lookupKpi id) ∧
      (run { registries with kpis := kpis } .default document =
        run registries .default document) ∧
      ['M'] ∉ lookups registries .default document ∧
      run (registries.insertKpi ['M'] []) .default document = run registries .default document := by
  intro refersTo K L M registries kpis document
  have hlookups : lookups registries .default document = [['U'], ['L'], ['K']] := by
    decide +kernel
  have hagree : ∀ id ∈ lookups registries .default document,
      { registries with kpis := kpis }.lookupKpi id = registries.lookupKpi id := by
    rw [hlookups]
    decide +kernel
  have hM : ['M'] ∉ lookups registries .default document := by
    rw [hlookups]
    decide
  obtain ⟨hrun, hinsert⟩ := run_eq_of_agree registries .default document
  exact ⟨hlookups, hagree, hrun kpis hagree, hM, hinsert ['M'] [] hM⟩

end CounterFormula
