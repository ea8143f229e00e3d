import CounterFormula.Proofs.Run.Independence
import CounterFormula.Proofs.Summation.Rewriting

/-!
# Run — Colons

Where the colons of a formula come from.  Every head of a reference has one, and no name, number,
sum or placeholder does.  A formula *only refers* when its colons are all in references that pass 1
replaces.  If such formulas are all that a run without a fault comes to, then no colon is left
after pass 1, and none is brought back.

* `colon_not_mem_resolve`: what a reference stands for has no colon, when the formulas of the KPIs
  it leads to only refer.
* `colon_not_mem_substituted`: neither has what pass 2 leaves of a formula that only refers.
-/

namespace CounterFormula

open Relation (ReflTransGen)

/-- The spans that pass 1 replaces. -/
def Stage.replaced (stage : Stage) : List Span :=
  if Reference.mentionedIn stage.source then (Reference.sites stage.tokens).map Prod.snd else []

/-- The colons of the formula are all in references that pass 1 replaces. -/
def Stage.OnlyRefers (stage : Stage) : Prop :=
  ':' ∉ stage.source.outside stage.replaced

/-- The formula of `document`, if there is one, only refers. -/
def Run.OnlyRefers (config : Config) (document : Text) : Prop :=
  ∀ raw, Block.locate config.startPhrase (Block.mendPhrase document) = .formula raw →
    (Stage.clean config raw).OnlyRefers

theorem Run.onlyRefers_of_locate {config : Config} {document raw : Text}
    (hlocate : Block.locate config.startPhrase (Block.mendPhrase document) = .formula raw)
    (h : (Stage.clean config raw).OnlyRefers) : OnlyRefers config document := by
  intro raw' hlocate'
  obtain rfl := Block.formula.inj (hlocate.symm.trans hlocate')
  exact h

variable {c : Char}

/-! ### Texts -/

namespace Text

variable {text : Text}

theorem mem_spliceAll {patches : List (Span × Text)} (h : c ∈ spliceAll text patches) :
    c ∈ text ∨ ∃ patch ∈ patches, c ∈ patch.2 := by
  induction patches with
  | nil => exact .inl h
  | cons patch rest ih =>
      have hrest (h : c ∈ spliceAll text rest) :
          c ∈ text ∨ ∃ found ∈ patch :: rest, c ∈ found.2 := by
        rcases ih h with h | ⟨found, hfound, h⟩
        · exact .inl h
        · exact .inr ⟨found, List.mem_cons_of_mem _ hfound, h⟩
      rw [spliceAll_cons, splice] at h
      rcases List.mem_append.mp h with h | h
      · rcases List.mem_append.mp h with h | h
        · exact hrest (List.mem_of_mem_take h)
        · exact .inr ⟨patch, List.mem_cons_self, h⟩
      · exact hrest (List.mem_of_mem_drop h)

theorem mem_replace {mark new : Text} (h : c ∈ replace mark new text) : c ∈ new ∨ c ∈ text := by
  fun_induction replace mark new text with
  | case1 => exact .inr h
  | case2 d rest _ ih =>
      rcases List.mem_append.mp h with h | h
      · exact .inl h
      · exact (ih h).imp_right fun h => List.mem_cons_of_mem d (List.mem_of_mem_drop h)
  | case3 d rest _ ih =>
      rcases List.mem_cons.mp h with rfl | h
      · exact .inr List.mem_cons_self
      · exact (ih h).imp_right (List.mem_cons_of_mem d)

theorem mem_of_lookup {entries : List (Text × Text)} {key value : Text}
    (h : entries.lookup key = some value) : (key, value) ∈ entries := by
  obtain ⟨before, after, rfl, -⟩ := List.lookup_eq_some_iff.mp h
  exact List.mem_append_right before List.mem_cons_self

theorem mem_of_mem_trimEnd (h : c ∈ trimEnd text) : c ∈ text :=
  List.mem_reverse.mp ((List.dropWhile_sublist _).subset (List.mem_reverse.mp h))

theorem mem_join {separator : Text} {texts : List Text} (h : c ∈ join separator texts) :
    c ∈ separator ∨ ∃ text ∈ texts, c ∈ text := by
  induction texts with
  | nil => cases h
  | cons text more ih =>
      cases more with
      | nil =>
          rw [join, List.intercalate_singleton] at h
          exact .inr ⟨text, List.mem_cons_self, h⟩
      | cons text' more =>
          have hjoin : join separator (text :: text' :: more) =
              text ++ separator ++ join separator (text' :: more) := List.intercalate_cons_cons
          rw [hjoin] at h
          rcases List.mem_append.mp h with h | h
          · rcases List.mem_append.mp h with h | h
            · exact .inr ⟨text, List.mem_cons_self, h⟩
            · exact .inl h
          · rcases ih h with h | ⟨found, hfound, h⟩
            · exact .inl h
            · exact .inr ⟨found, List.mem_cons_of_mem _ hfound, h⟩

end Text

/-! ### Variables -/

namespace Assignment

variable {source text name : Text} {table : List Assignment} {values : List (Text × Text)}

theorem mem_of_mem_values {value : Text × Text} (h : value ∈ Assignment.values source table)
    (hc : c ∈ value.2) : c ∈ source := by
  obtain ⟨assignment, -, rfl⟩ := List.mem_map.mp h
  dsimp only at hc
  rw [valueText?] at hc
  split at hc
  · exact List.mem_of_mem_drop (List.mem_of_mem_take hc)
  · cases hc

theorem mem_sweep (h : c ∈ sweep values text) : c ∈ text ∨ ∃ value ∈ values, c ∈ value.2 := by
  induction values generalizing text with
  | nil => exact .inl h
  | cons value rest ih =>
      rcases ih h with h | ⟨found, hfound, h⟩
      · rcases Text.mem_replace h with h | h
        · exact .inr ⟨value, List.mem_cons_self, h⟩
        · exact .inl h
      · exact .inr ⟨found, List.mem_cons_of_mem _ hfound, h⟩

/-- Putting the values in brings in nothing that was not in the formula. -/
theorem mem_of_mem_substitute (h : c ∈ substitute source table) : c ∈ source := by
  rcases mem_sweep h with h | ⟨value, hvalue, h⟩
  · cases table with
    | nil => exact h
    | cons first _ => exact List.mem_of_mem_take (Text.mem_of_mem_trimEnd h)
  · exact mem_of_mem_values hvalue h

/-- Nor does a single value, or the text that says it is missing. -/
theorem mem_sourceOf (h : c ∈ sourceOf values name) :
    (∃ value ∈ values, c ∈ value.2) ∨ c ∈ missing name := by
  rw [sourceOf, resolved?] at h
  cases hlookup : values.lookup name with
  | none => rw [hlookup] at h; exact .inr h
  | some value =>
      rw [hlookup] at h
      rcases mem_sweep h with hvalue | hvalue
      · exact .inl ⟨(name, value), Text.mem_of_lookup hlookup, hvalue⟩
      · exact .inl hvalue

end Assignment

/-! ### Summations -/

namespace Summation

variable {config : Config} {screenings : Option ScreeningRegistry} {summation : Summation}

theorem mem_sum {terms : List Text} (h : c ∈ sum terms) :
    c ∈ ['(', '+', ')'] ∨ ∃ text ∈ terms, c ∈ text := by
  rw [sum] at h
  split at h
  · cases h
  · rcases List.mem_append.mp h with h | h
    · rcases List.mem_append.mp h with h | h
      · exact .inl (by simp [List.mem_singleton.mp h])
      · exact (Text.mem_join h).imp_left fun h => by simp [List.mem_singleton.mp h]
    · exact .inl (by simp [List.mem_singleton.mp h])

/-- An expansion is made of the counter, the suffixes and the signs that join them. -/
theorem mem_expand (h : c ∈ (summation.expand config screenings).1) :
    c ∈ ['(', '+', ')', '.'] ∨ c ∈ summation.counter ∨
      ∃ registry, screenings = some registry ∧ ∃ row ∈ registry.rows, c ∈ row.suffix := by
  cases screenings with
  | none => cases h
  | some registry =>
      rw [expand] at h
      generalize hrows : registry.query summation.counter config.release _ = rows at h
      split at h
      · cases h
      · rcases mem_sum h with h | ⟨text, htext, h⟩
        · exact .inl (List.mem_append_left ['.'] h)
        · obtain ⟨row, hrow, rfl⟩ := List.mem_map.mp htext
          have hquery := (List.mem_filter.mp hrow).1
          rw [← hrows] at hquery
          rw [term] at h
          rcases List.mem_append.mp h with h | h
          · rcases List.mem_append.mp h with h | h
            · exact .inr (.inl h)
            · exact .inl (by simp [List.mem_singleton.mp h])
          · exact .inr (.inr ⟨registry, rfl, row, (List.mem_filter.mp hquery).1, h⟩)

/-- **Summations** bring no colon in. -/
theorem colon_not_mem_expandAll {source : Text} (hsuffixed : Suffixed screenings)
    (h : ':' ∉ source) :
    ':' ∉ (expandAll config screenings source (lex .strict source).body).1 := by
  intro hmem
  rw [expandAll_eq_spliceAll] at hmem
  rcases Text.mem_spliceAll hmem with hmem | ⟨patch, hpatch, hmem⟩
  · exact h hmem
  obtain ⟨site, hsite, rfl⟩ := List.mem_map.mp hpatch
  rcases mem_expand hmem with hmem | hmem | ⟨registry, hregistry, row, hrow, hmem⟩
  · exact absurd hmem (by decide)
  · obtain ⟨counter, hcounter, hsymbol, hname⟩ := exists_counter_of_mem_sites hsite
    have hkind : counter.kind ≠ .operator := by
      rw [Token.kind_of_isSymbol hsymbol]
      decide
    rw [hname] at hmem
    exact absurd ((scans_iff.mpr rfl : Lexer.Scans .boundary 0 source _).inWord_text hcounter hkind
      ':' hmem) (by decide)
  · exact absurd (hsuffixed registry hregistry row hrow ':' hmem) (by decide)

end Summation

/-! ### References -/

variable {registries : Registries} {config : Config} {chain : List Text}

/-- What a resolver puts in for each reference does not depend on the others. -/
theorem answers_resolver (registries : Registries) (config : Config) (chain : List Text)
    (occurrences : List Reference.Occurrence) (log : Log) :
    (Reference.answers (resolver registries config chain) occurrences log).1 =
      (occurrences.filterMap Reference.Occurrence.site?).map fun site =>
        (site.2, (resolve registries config chain site.1 .empty).1) := by
  induction occurrences with
  | nil => rfl
  | cons occurrence rest ih =>
      cases occurrence with
      | wellFormed reference span =>
          have htext := (resolve_eq registries config chain reference
            (Reference.answers (resolver registries config chain) rest log).2).1
          rw [Reference.answers_wellFormed, ih]
          exact congrArg (fun text => (span, text) :: _) htext
      | malformed fault span => exact ih

/-- References that have led to no fault are all well-formed, and each of them leads to none. -/
theorem faultless_of_answers {occurrences : List Reference.Occurrence} {log : Log}
    (h : (Reference.answers (resolver registries config chain) occurrences log).2.faults = []) :
    ∀ occurrence ∈ occurrences, ∃ reference span, occurrence = .wellFormed reference span ∧
      (resolve registries config chain reference .empty).2.faults = [] := by
  induction occurrences with
  | nil => exact fun _ h => absurd h List.not_mem_nil
  | cons occurrence rest ih =>
      cases occurrence with
      | wellFormed reference span =>
          have hadds := (resolve_eq registries config chain reference
            (Reference.answers (resolver registries config chain) rest log).2).2
          obtain ⟨hrest, hfaults⟩ := List.append_eq_nil_iff.mp (hadds.symm.trans h)
          exact List.forall_mem_cons.mpr ⟨⟨reference, span, rfl, hfaults⟩, ih hrest⟩
      | malformed fault span => exact absurd (List.append_eq_nil_iff.mp h).2 (List.cons_ne_nil _ _)

/-- **After pass 1** of a formula that only refers no colon is left, unless what its references
stand for has one. -/
theorem Stage.colon_not_mem_inline {stage : Stage}
    (htokens : stage.tokens = (lex config.mode stage.source).body) (honly : stage.OnlyRefers)
    (htexts : ∀ reference ∈ stage.references,
      ':' ∉ (resolve registries config chain reference .empty).1) :
    ':' ∉ (stage.inline config (resolver registries config chain)).source := by
  rw [OnlyRefers, replaced] at honly
  rw [references] at htexts
  rw [inline]
  by_cases hmention : Reference.mentionedIn stage.source = true
  · rw [if_pos hmention] at honly htexts ⊢
    have hsubstitute := Reference.substitute_eq_patch_answers
      (resolver registries config chain) config.mode stage.source .empty
    have hspans := Reference.spans_answers (resolver registries config chain)
      (Reference.occurrences stage.tokens) .empty
    rw [← htokens] at hsubstitute
    intro hmem
    dsimp only at hmem
    rw [hsubstitute] at hmem
    rcases Text.mem_patchFrom hmem with hmem | ⟨patch, hpatch, hmem⟩
    · rw [hspans] at hmem
      exact honly hmem
    · rw [answers_resolver] at hpatch
      obtain ⟨site, hsite, rfl⟩ := List.mem_map.mp hpatch
      exact htexts site.1 (List.mem_map_of_mem hsite) hmem
  · rw [if_neg hmention] at honly ⊢
    exact fun hmem => honly hmem

/-- So none is left at all. -/
theorem Run.colon_not_mem_ofFormula {raw : Text} (hmode : config.mode = .strict)
    (hsuffixed : Summation.Suffixed registries.screenings)
    (honly : (Stage.clean config raw).OnlyRefers)
    (htexts : ∀ reference ∈ (Stage.clean config raw).references,
      ':' ∉ (resolve registries config chain reference .empty).1) :
    let outcome := (ofFormula (resolver registries config chain) registries.screenings config
      raw).outcome
    ':' ∉ outcome.substituted ∧ ':' ∉ outcome.expanded ∧
      ∀ value ∈ outcome.values, ':' ∉ value.2 := by
  intro outcome
  have hinlined : ':' ∉ outcome.inlined := by
    simp only [outcome, ofFormula, inlined_ofInlined]
    exact Stage.colon_not_mem_inline rfl honly htexts
  have hsubstituted : ':' ∉ outcome.substituted := fun hmem =>
    hinlined (Assignment.mem_of_mem_substitute (substituted_ofInlined ▸ hmem))
  refine ⟨hsubstituted, ?_, fun value hvalue hmem => ?_⟩
  · have hexpanded : ':' ∉ (Summation.expandAll config registries.screenings outcome.substituted
        (lex .strict outcome.substituted).body).1 :=
      Summation.colon_not_mem_expandAll hsuffixed hsubstituted
    rw [← hmode] at hexpanded
    exact expanded_ofInlined ▸ hexpanded
  · exact hinlined (Assignment.mem_of_mem_values (values_ofInlined ▸ hvalue) hmem)

/-- A reference without a fault gives the text of a run without one. -/
theorem Run.answer_faultless {run : Run} {reference : Reference}
    (h : (run.answer reference .empty).2.faults = []) :
    run.outcome.raw ≠ [] ∧ run.outcome.faults = [] ∧
      (run.answer reference .empty).1 = run.textFor reference := by
  rw [answer] at h ⊢
  split at h
  · cases h
  · rename_i hraw
    split at h
    · rename_i hfaults
      rw [if_neg hraw, if_pos hfaults]
      exact ⟨fun hnil => hraw (List.isEmpty_iff.mpr hnil), List.isEmpty_iff.mp hfaults, rfl⟩
    · cases h

/-- A run that finds a formula is the run over it. -/
theorem Run.exists_ofFormula {resolver : Reference.Resolver Log}
    {screenings : Option ScreeningRegistry} {document : Text}
    (h : (ofDocument resolver screenings config document).outcome.raw ≠ []) :
    ∃ raw, Block.locate config.startPhrase (Block.mendPhrase document) = .formula raw ∧
      ofDocument resolver screenings config document =
        ofFormula resolver screenings config raw := by
  rw [ofDocument] at h ⊢
  cases hlocate : Block.locate config.startPhrase (Block.mendPhrase document) with
  | noPhrase => rw [hlocate] at h; exact absurd rfl h
  | flawed flaw => rw [hlocate] at h; exact absurd rfl h
  | formula raw => exact ⟨raw, rfl, rfl⟩

/-- **A reference that leads to no fault** names a KPI that is registered and not being resolved,
and stands for what the run over the formula of that KPI, which meets no fault, gives for it. -/
theorem exists_ofFormula_of_faults_resolve {reference : Reference}
    (h : (resolve registries config chain reference .empty).2.faults = []) :
    reference.kpi ∉ chain ∧ ∃ document raw, registries.lookupKpi reference.kpi = some document ∧
      Block.locate config.nested.startPhrase (Block.mendPhrase document) = .formula raw ∧
      let run := Run.ofFormula (resolver registries config.nested (chain ++ [reference.kpi]))
        registries.screenings config.nested raw
      run.outcome.faults = [] ∧
        (resolve registries config chain reference .empty).1 = run.textFor reference := by
  by_cases hmem : reference.kpi ∈ chain
  · rw [resolve_of_mem config .empty hmem] at h
    cases h
  cases hlookup : registries.lookupKpi reference.kpi with
  | none =>
      rw [resolve_of_lookupKpi_eq_none config .empty hmem hlookup] at h
      cases h
  | some document =>
      rw [resolve_of_lookupKpi config .empty hmem hlookup] at h ⊢
      obtain ⟨hraw, hfaultless, htext⟩ := Run.answer_faultless h
      obtain ⟨raw, hlocate, hrun⟩ := Run.exists_ofFormula hraw
      rw [hrun] at hfaultless htext
      rw [hrun]
      exact ⟨hmem, document, raw, rfl, hlocate, hfaultless, htext⟩

/-- No stage of a run without a fault has one. -/
theorem Run.faultless_stages {screenings : Option ScreeningRegistry} {raw : Text}
    {cleaned inlined : Stage}
    (h : (ofInlined screenings config raw cleaned inlined).outcome.faults = []) :
    let substituted := inlined.assign config (Assignment.extract inlined.tokens).1
      (Assignment.extract inlined.tokens).2
    let expanded := substituted.sum config screenings
    inlined.faults = [] ∧ substituted.faults = [] ∧ expanded.faults = [] ∧
      SymbolTable.undefinedVariables expanded.tokens = [] := by
  simp only [ofInlined_eq, List.append_eq_nil_iff, List.map_eq_nil_iff] at h
  obtain ⟨⟨⟨⟨-, hinlined⟩, hsubstituted⟩, hexpanded⟩, hundefined⟩ := h
  exact ⟨hinlined, hsubstituted, hexpanded, hundefined⟩

/-- The references of a run lead to none when it lists no fault of a reference. -/
theorem Run.faultless_of_reference? {screenings : Option ScreeningRegistry} {raw : Text}
    (h : (ofFormula (resolver registries config chain) screenings config
      raw).outcome.faults.filterMap Fault.reference? = [])
    {reference : Reference} (hmem : reference ∈ (Stage.clean config raw).references) :
    (resolve registries config chain reference .empty).2.faults = [] := by
  rw [Stage.references] at hmem
  split at hmem
  · rename_i hmention
    rw [ofFormula, reference?_faults_ofInlined, Stage.inline, if_pos hmention,
      Stage.reference?_faults_reachInlined, Reference.substitute_eq_spliceAll] at h
    obtain ⟨site, hsite, rfl⟩ := List.mem_map.mp hmem
    obtain ⟨occurrence, hoccurrence, hmade⟩ := List.mem_filterMap.mp hsite
    obtain ⟨reference, span, rfl, hfaultless⟩ := faultless_of_answers h occurrence hoccurrence
    obtain rfl := Option.some.inj hmade
    exact hfaultless
  · cases hmem

/-- The references of a run without a fault lead to none. -/
theorem Run.faultless_of_ofFormula {screenings : Option ScreeningRegistry} {raw : Text}
    (h : (ofFormula (resolver registries config chain) screenings config raw).outcome.faults = [])
    {reference : Reference} (hmem : reference ∈ (Stage.clean config raw).references) :
    (resolve registries config chain reference .empty).2.faults = [] :=
  faultless_of_reference? (congrArg (List.filterMap Fault.reference?) h) hmem

/-- The name that a reference asks for has no colon. -/
theorem Stage.colon_not_mem_wanted {stage : Stage}
    (htokens : stage.tokens = (lex .strict stage.source).body) {reference : Reference}
    (hmem : reference ∈ stage.references) {name : Text} (hwanted : reference.wanted = some name) :
    ':' ∉ name := by
  rw [references] at hmem
  split at hmem
  · obtain ⟨site, hsite, rfl⟩ := List.mem_map.mp hmem
    obtain ⟨token, htoken, hvariable, rfl⟩ :=
      (Reference.mem_sites_iff.mp hsite).exists_variable_of_wanted hwanted
    rw [htokens] at htoken
    have hkind : token.kind ≠ .operator := by
      rw [Token.kind_of_isVariable hvariable]
      decide
    intro hcolon
    exact absurd ((scans_iff.mpr rfl : Lexer.Scans .boundary 0 stage.source _).inWord_text
      htoken hkind ':' hcolon) (by decide)
  · cases hmem

/-- **What a reference stands for** has no colon, when the KPIs it leads to only refer and it leads
to no fault. -/
theorem colon_not_mem_resolve (hmode : config.mode = .strict)
    (hsuffixed : Summation.Suffixed registries.screenings) {reference : Reference}
    (honly : ∀ id document, ReflTransGen (registries.Refers config.nested) reference.kpi id →
      registries.lookupKpi id = some document → Run.OnlyRefers config.nested document)
    (hwanted : ∀ name, reference.wanted = some name → ':' ∉ name)
    (hfaults : (resolve registries config chain reference .empty).2.faults = []) :
    ':' ∉ (resolve registries config chain reference .empty).1 := by
  induction chain using registries.chain_induction generalizing config reference with
  | extend chain ih =>
      obtain ⟨hnew, document, raw, hlookup, hlocate, hfaultless, htext⟩ :=
        exists_ofFormula_of_faults_resolve hfaults
      have hmode' : config.nested.mode = .strict := hmode
      have hreferences : Run.references config.nested document =
          (Stage.clean config.nested raw).references := by
        rw [Run.references, hlocate]
      have htexts : ∀ inner ∈ (Stage.clean config.nested raw).references,
          ':' ∉ (resolve registries config.nested (chain ++ [reference.kpi]) inner .empty).1 := by
        intro inner hinner
        have hrefers : registries.Refers config.nested reference.kpi inner.kpi :=
          Registries.refers_of_mem hlookup (by rwa [hreferences])
        refine ih _ document hnew hlookup hmode' ?_ ?_
          (Run.faultless_of_ofFormula hfaultless hinner)
        · intro id document hreaches hid
          rw [Config.nested_nested] at hreaches ⊢
          exact honly id document (.head hrefers hreaches) hid
        · intro name hname
          refine Stage.colon_not_mem_wanted ?_ hinner hname
          rw [← hmode']
          rfl
      obtain ⟨-, hexpanded, hvalues⟩ := Run.colon_not_mem_ofFormula hmode' hsuffixed
        (honly _ document .refl hlookup raw hlocate) htexts
      rw [htext, Run.textFor]
      cases hname : reference.wanted with
      | none => exact hexpanded
      | some name =>
          intro hcolon
          rcases Assignment.mem_sourceOf hcolon with ⟨value, hvalue, hcolon⟩ | hcolon
          · exact hvalues value hvalue hcolon
          · rcases List.mem_append.mp hcolon with hcolon | hcolon
            · exact absurd hcolon (by decide)
            · exact hwanted name hname hcolon

/-- **After pass 2** of a run without a fault no colon is left, when the formula and those of the
KPIs it leads to only refer. -/
theorem colon_not_mem_substituted {document : Text} (hmode : config.mode = .strict)
    (hsuffixed : Summation.Suffixed registries.screenings)
    (hfaults : (run registries config document).outcome.faults = [])
    (honly : Run.OnlyRefers config document)
    (hreached : ∀ id document', registries.Reaches config document id →
      registries.lookupKpi id = some document' → Run.OnlyRefers config.nested document') :
    ':' ∉ (run registries config document).outcome.substituted := by
  have hempty : ':' ∉ ([] : Text) := List.not_mem_nil
  rw [run, Run.ofDocument] at hfaults ⊢
  cases hlocate : Block.locate config.startPhrase (Block.mendPhrase document) with
  | noPhrase => exact hempty
  | flawed flaw => exact hempty
  | formula raw =>
      rw [hlocate] at hfaults
      have htokens : (Stage.clean config raw).tokens =
          (lex .strict (Stage.clean config raw).source).body := by rw [← hmode]; rfl
      have hreferences : Run.references config document = (Stage.clean config raw).references := by
        rw [Run.references, hlocate]
      refine (Run.colon_not_mem_ofFormula hmode hsuffixed (honly raw hlocate) ?_).1
      intro reference hmem
      refine colon_not_mem_resolve hmode hsuffixed ?_
        (fun name hname => Stage.colon_not_mem_wanted htokens hmem hname)
        (Run.faultless_of_ofFormula hfaults hmem)
      intro id document' hreaches hid
      have hreferred := Registries.reaches_iff.mpr ⟨reference, by rwa [hreferences], hreaches⟩
      exact hreached id document' hreferred hid

end CounterFormula
