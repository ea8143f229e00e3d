import CounterFormula.Proofs.Assignment.Pairs
import CounterFormula.Proofs.Run.Hygiene
import CounterFormula.Proofs.Run.Locality

/-!
# Run — Plain

Formulas that no pass changes.  A formula is *plain* when its tokens hold no well-formed reference,
no variable of two characters or more with an equals sign directly behind it, and no summation sign
before a symbol.  Whatever else it holds is reported and stays: references that break off, equals
signs that define nothing, variables that nothing defines, characters that fit no token.

* `noWellFormed_iff`, `noAssignment_iff`, `noSum_iff`: in a plain formula no pass finds anything to
  put in.
* `Stage.source_inline_of_sites`, `Stage.tokens_inline_of_sites`: pass 1 of such a formula reads it
  again, if it mentions a reference, and finds the same tokens.
* `runUnder_of_plain`: so a plain formula goes through all passes unchanged, and the run over it is
  the same under any registries.
-/

namespace CounterFormula

/-- No well-formed reference occurs by the grammar. -/
def NoWellFormed (tokens : List Token) : Prop :=
  ∀ reference span, ¬ Reference.Occurs tokens (.wellFormed reference span)

/-- No variable that is long enough to be defined stands directly before an equals sign. -/
def NoAssignment (tokens : List Token) : Prop :=
  ∀ name equals rest, name :: equals :: rest <:+ tokens → name.isVariable = true →
    2 ≤ name.text.length → equals.isOperator '=' = false

/-- Nothing among `tokens` is to be put in. -/
structure Plain (tokens : List Token) : Prop where
  no_reference : NoWellFormed tokens
  no_assignment : NoAssignment tokens
  no_sum : NoSum tokens

variable {registries : Registries} {config : Config} {chain : List Text} {tokens : List Token}
  {stage : Stage}

/-! ### References -/

/-- **Pass 1** finds a reference just where one is well-formed. -/
theorem noWellFormed_iff : NoWellFormed tokens ↔ Reference.sites tokens = [] := by
  rw [List.eq_nil_iff_forall_not_mem, Prod.forall]
  simp only [NoWellFormed, Reference.mem_sites_iff]

/-! ### Assignments -/

theorem Assignment.mem_pairs {i : Nat} : i ∈ pairs tokens ↔ pairAt tokens i = true := by
  rw [pairs, List.mem_filter, List.mem_range, and_iff_right_iff_imp]
  intro hpair
  obtain ⟨name, _, hname, -⟩ := pairAt_iff.mp hpair
  exact (List.getElem?_eq_some_iff.mp hname).1

/-- **Pass 2** finds an assignment just where a variable that is long enough stands directly before
an equals sign. -/
theorem noAssignment_iff : NoAssignment tokens ↔ (Assignment.extract tokens).1 = [] := by
  obtain ⟨hmade, -⟩ := Assignment.extract_eq_pairs tokens
  constructor
  · intro h
    have hnone : (Assignment.pairs tokens).filter (Assignment.FirstOfName tokens ·) = [] := by
      refine List.filter_eq_nil_iff.mpr fun i hi hfirst => ?_
      obtain ⟨name, equals, hname, hequals, hvariable, hsign⟩ :=
        Assignment.pairAt_iff.mp (Assignment.mem_pairs.mp hi)
      obtain ⟨rest, hsuffix⟩ := exists_suffix_iff.mpr ⟨i, hname, hequals⟩
      have hlength := (of_decide_eq_true hfirst).1
      rw [Assignment.nameAt_eq hname] at hlength
      rw [h name equals rest hsuffix hvariable hlength] at hsign
      cases hsign
    rw [hnone] at hmade
    exact List.forall₂_nil_left_iff.mp hmade
  · intro htable name equals rest hsuffix hvariable hlength
    refine Bool.eq_false_iff.mpr fun hsign => ?_
    obtain ⟨i, hname, hequals⟩ := exists_suffix_iff.mp ⟨rest, hsuffix⟩
    have hpair := Assignment.pairAt_iff.mpr ⟨name, equals, hname, hequals, hvariable, hsign⟩
    rw [← Assignment.nameAt_eq hname] at hlength
    -- the first pair of that name would make an assignment
    obtain ⟨j, -, hpair', hfirst, -⟩ := Assignment.exists_firstOfName hpair hlength
    have hmem : j ∈ (Assignment.pairs tokens).filter (Assignment.FirstOfName tokens ·) :=
      List.mem_filter.mpr ⟨Assignment.mem_pairs.mpr hpair', decide_eq_true hfirst⟩
    rw [htable, List.forall₂_nil_right_iff] at hmade
    rw [hmade] at hmem
    cases hmem

/-! ### Passes of a plain formula -/

/-- Pass 1 leaves a formula without a well-formed reference as it is. -/
theorem Stage.source_inline_of_sites (h : Reference.sites stage.tokens = []) (config : Config)
    (resolver : Reference.Resolver Log) :
    (stage.inline config resolver).source = stage.source := by
  have hnone : (Reference.answers resolver (Reference.occurrences stage.tokens) .empty).1 = [] := by
    have hspans := Reference.spans_answers resolver (Reference.occurrences stage.tokens) .empty
    rw [← Reference.sites, h] at hspans
    exact List.map_eq_nil_iff.mp hspans
  rw [inline]
  split
  · rw [Reference.substitute_eq_spliceAll, hnone]
    rfl
  · rfl

/-- Whether it reads the formula again or not, it goes on with the same tokens. -/
theorem Stage.tokens_inline_of_sites (htokens : stage.tokens = (lex config.mode stage.source).body)
    (h : Reference.sites stage.tokens = []) (resolver : Reference.Resolver Log) :
    (stage.inline config resolver).tokens = stage.tokens := by
  by_cases hmention : Reference.mentionedIn stage.source = true
  · rw [tokens_inline hmention, source_inline_of_sites h, htokens]
  · rw [inline, if_neg hmention]
    rfl

/-- Without a well-formed reference the resolver is not asked. -/
theorem Stage.inline_congr_of_sites {resolver resolver' : Reference.Resolver Log}
    (hreport : resolver.report = resolver'.report) (h : Reference.sites stage.tokens = [])
    (config : Config) : stage.inline config resolver = stage.inline config resolver' := by
  have hreferences : stage.references = [] := by
    rw [references, h, List.map_nil, ite_self]
  refine inline_congr hreport ?_ config
  rw [hreferences]
  exact List.forall_mem_nil _

/-- Pass 3 leaves a formula without a summation as it is, and reports nothing. -/
theorem Summation.expandAll_of_sites (h : sites tokens = []) (config : Config)
    (screenings : Option ScreeningRegistry) (source : Text) :
    expandAll config screenings source tokens = (source, []) := by
  induction tokens with
  | nil => rfl
  | cons token rest ih =>
      rw [sites] at h
      split at h
      · rename_i hread
        rw [expandAll, ih h, hread]
      · cases h

/-- Pass 3 of a formula without a summation does not depend on the screenings. -/
theorem Stage.sum_of_sites (h : Summation.sites stage.tokens = []) (config : Config)
    (screenings : Option ScreeningRegistry) :
    stage.sum config screenings = reach config.mode 3 stage.source [] := by
  rw [sum, Summation.expandAll_of_sites h]
  rfl

/-! ### Runs -/

/-- Passes 2 and 3 leave a plain formula as it is, whatever the screenings. -/
theorem Run.ofInlined_of_plain {inlined : Stage} {source : Text} (hsource : inlined.source = source)
    (htokens : inlined.tokens = (lex config.mode source).body)
    (hplain : Plain (lex config.mode source).body) (screenings : Option ScreeningRegistry)
    (raw : Text) (cleaned : Stage) :
    let outcome := (ofInlined screenings config raw cleaned inlined).outcome
    outcome.table = [] ∧ outcome.values = [] ∧ outcome.substituted = source ∧
      outcome.expanded = source ∧
      ofInlined screenings config raw cleaned inlined =
        ofInlined none config raw cleaned inlined := by
  intro outcome
  have htable : outcome.table = [] := by
    have hextract := noAssignment_iff.mp hplain.no_assignment
    rw [← htokens] at hextract
    exact table_ofInlined.trans hextract
  have hvalues : outcome.values = Assignment.values outcome.inlined outcome.table :=
    values_ofInlined
  have hsubstituted : outcome.substituted = source :=
    (substituted_ofInlined_of_table htable).trans hsource
  let substituted := inlined.assign config (Assignment.extract inlined.tokens).1
    (Assignment.extract inlined.tokens).2
  have hreached : outcome.substituted = substituted.source := by
    simp only [outcome, ofInlined_eq, substituted]
  have hsites : Summation.sites substituted.tokens = [] := by
    have htokens' : substituted.tokens = (lex config.mode substituted.source).body := rfl
    rw [htokens', ← hreached, hsubstituted]
    exact noSum_iff.mp hplain.no_sum
  refine ⟨htable, ?_, hsubstituted, ?_, ?_⟩
  · rw [hvalues, htable]
    rfl
  · have hexpanded : outcome.expanded = (substituted.sum config screenings).source := by
      simp only [outcome, ofInlined_eq, substituted]
    rw [hexpanded, Stage.sum_of_sites hsites]
    exact hreached.symm.trans hsubstituted
  · have hsum : substituted.sum config screenings = substituted.sum config none := by
      rw [Stage.sum_of_sites hsites, Stage.sum_of_sites hsites]
    simp only [substituted] at hsum
    rw [ofInlined_eq, ofInlined_eq]
    dsimp only
    rw [hsum]

/-- **A plain formula** goes through all passes as it is, character for character, and defines no
variable, whatever else is amiss with it.  The registries have no influence on the run over it, nor
have the KPIs that are being resolved. -/
theorem runUnder_of_plain (registries : Registries) (config : Config) (chain : List Text)
    {document raw : Text}
    (hlocate : Block.locate config.startPhrase (Block.mendPhrase document) = .formula raw)
    (hplain : Plain (lex config.mode (clean config.encoding raw)).body) :
    let cleaned := clean config.encoding raw
    let outcome := (runUnder registries config chain document).outcome
    outcome.passes = [cleaned, cleaned, cleaned, cleaned] ∧ outcome.table = [] ∧
      outcome.values = [] ∧
      ∀ other chain',
        runUnder other config chain' document = runUnder registries config chain document := by
  intro cleaned outcome
  have hsites : Reference.sites (Stage.clean config raw).tokens = [] :=
    noWellFormed_iff.mp hplain.no_reference
  have hrun (registries : Registries) (chain : List Text) :
      runUnder registries config chain document =
        Run.ofInlined registries.screenings config raw (Stage.clean config raw)
          ((Stage.clean config raw).inline config (resolver registries config chain)) := by
    rw [runUnder, Run.ofDocument, hlocate]
    rfl
  have hleft (registries : Registries) (chain : List Text) :=
    Run.ofInlined_of_plain
      (Stage.source_inline_of_sites hsites config (resolver registries config chain))
      (Stage.tokens_inline_of_sites rfl hsites (resolver registries config chain))
      hplain registries.screenings raw (Stage.clean config raw)
  have houtcome : outcome = _ := congrArg Run.outcome (hrun registries chain)
  obtain ⟨htable, hvalues, hsubstituted, hexpanded, -⟩ := hleft registries chain
  rw [houtcome]
  refine ⟨?_, htable, hvalues, fun other chain' => ?_⟩
  · have hinlined :=
      Stage.source_inline_of_sites hsites config (resolver registries config chain)
    rw [Outcome.passes, hsubstituted, hexpanded, Run.cleaned_ofInlined, Run.inlined_ofInlined,
      hinlined]
    rfl
  · have hinline : (Stage.clean config raw).inline config (resolver other config chain') =
        (Stage.clean config raw).inline config (resolver registries config chain) :=
      Stage.inline_congr_of_sites (by rfl) hsites config
    rw [hrun, hrun, (hleft other chain').2.2.2.2, (hleft registries chain).2.2.2.2, hinline]

/-- A reference without its closing parenthesis, a variable that nothing defines, equals signs that
define nothing, a summation sign before a number and a character that fits no token; the registries
know the KPI and the counter. -/
theorem runUnder_of_plain_of_faulty :
    let registries : Registries :=
      ⟨some ⟨[(['K'], "eNB Counter Method: BEGIN B END".toList)]⟩,
        some ⟨[⟨['A'], [], none, 1, ['s']⟩]⟩⟩
    let source := "Formula://EnbCounterMethod/K*$x + $ = 1 = A ~3 ?".toList
    let document := "eNB Counter Method: BEGIN ".toList ++ source ++ " END".toList
    let outcome := (runUnder registries .default [] document).outcome
    Block.locate Config.default.startPhrase (Block.mendPhrase document) = .formula source ∧
      Plain (lex Config.default.mode (clean Config.default.encoding source)).body ∧
      outcome.passes = [source, source, source, source] ∧ outcome.table = [] ∧
      (outcome.faults.map Fault.kind).eraseDups = [.lexical, .reference, .var] ∧
      runUnder ⟨none, none⟩ .default [['K']] document =
        runUnder registries .default [] document := by
  intro registries source document outcome
  have hlocate : Block.locate Config.default.startPhrase (Block.mendPhrase document) =
      .formula source := by decide +kernel
  have hcleaned : clean Config.default.encoding source = source := by decide +kernel
  have hplain : Plain (lex Config.default.mode (clean Config.default.encoding source)).body := by
    rw [hcleaned]
    exact ⟨noWellFormed_iff.mpr (by decide +kernel), noAssignment_iff.mpr (by decide +kernel),
      noSum_iff.mpr (by decide +kernel)⟩
  obtain ⟨hpasses, htable, -, hsame⟩ :=
    runUnder_of_plain registries .default [] hlocate hplain
  rw [hcleaned] at hpasses
  exact ⟨hlocate, hplain, hpasses, htable, by decide +kernel, hsame ⟨none, none⟩ [['K']]⟩

end CounterFormula
