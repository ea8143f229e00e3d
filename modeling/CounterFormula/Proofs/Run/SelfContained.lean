import CounterFormula.Proofs.Run.Colons

/-!
# Run — SelfContained

What is left to be put in when a run has met no fault.  A formula is *self-contained* when nothing
is: no variable, no summation sign before a symbol and no head of a reference.

Each pass runs once, references before variables and variables before summations, so a later pass
may bring about what an earlier one has looked for: the value of a variable may complete the head
of a reference, and a summation with an empty list vanishes, so that a sign comes to stand before a
symbol.  Neither is a fault (`not_selfContained_expanded`).

* `rewritten_ofInlined`: pass 3 of a run without a fault rewrites the summations that pass 2 leaves.
* `selfContained_expanded`: apart from what comes about later, the expanded formula of a run without
  a fault is self-contained; so it is when colons are written in references only.
-/

namespace CounterFormula

def NoVariable (tokens : List Token) : Prop :=
  ∀ token ∈ tokens, token.isVariable = false

/-- No summation sign stands before a symbol. -/
def NoSum (tokens : List Token) : Prop :=
  ∀ sign counter rest, sign :: counter :: rest <:+ tokens →
    sign.isOperator Lexer.summationSign = true → counter.isSymbol = false

/-- No reference begins among `tokens`, well-formed or not. -/
def NoReference (tokens : List Token) : Prop :=
  ∀ name slash path, ¬ Reference.Headed tokens name slash path

/-- Nothing is left to be put in. -/
structure SelfContained (tokens : List Token) : Prop where
  no_variable : NoVariable tokens
  no_sum : NoSum tokens
  no_reference : NoReference tokens

/-! ### What is left, token by token -/

theorem noVariable_of_undefinedVariables {tokens : List Token}
    (h : SymbolTable.undefinedVariables tokens = []) : NoVariable tokens := by
  have hnone := List.filter_eq_nil_iff.mp (List.map_eq_nil_iff.mp h)
  exact fun token htoken => Bool.eq_false_iff.mpr (hnone token htoken)

theorem noSum_iff {tokens : List Token} : NoSum tokens ↔ Summation.sites tokens = [] := by
  constructor
  · intro h
    induction tokens with
    | nil => rfl
    | cons token more ih =>
        have hread : Summation.read? (token :: more) = none := by
          refine Option.eq_none_iff_forall_ne_some.mpr fun found hfound => ?_
          obtain ⟨sign, counter, rest, htokens, hsign, hcounter, -⟩ := Summation.read?_inv hfound
          rw [htokens] at h
          rw [h sign counter rest (List.suffix_refl _) hsign] at hcounter
          cases hcounter
        rw [Summation.sites_of_read?_eq_none hread]
        refine ih fun sign counter rest hrest => ?_
        exact h sign counter rest (hrest.trans (List.suffix_cons token more))
  · rintro h sign counter rest ⟨before, rfl⟩ hsign
    refine Bool.eq_false_iff.mpr fun hcounter => ?_
    induction before with
    | nil =>
        cases hread : Summation.read? (sign :: counter :: rest) with
        | none => exact Summation.read?_ne_none hsign hcounter rest hread
        | some found =>
            rw [List.nil_append, Summation.sites, hread] at h
            cases h
    | cons token before ih =>
        rw [List.cons_append, Summation.sites] at h
        split at h
        · exact ih h
        · cases h

theorem noReference_iff {tokens : List Token} :
    NoReference tokens ↔ Reference.occurrences tokens = [] := by
  rw [List.eq_nil_iff_forall_not_mem]
  constructor
  · intro h occurrence hmem
    obtain ⟨name, slash, path, hhead, -⟩ := Reference.mem_occurrences.mp hmem
    exact h name slash path hhead
  · intro h name slash path hhead
    exact h _ (Reference.mem_occurrences.mpr ⟨name, slash, path, hhead, rfl⟩)

/-! ### Passes without a fault -/

variable {registries : Registries} {config : Config}

theorem Stage.faults_reach_eq_nil_iff {mode : Mode} {number : Nat} {source : Text}
    {faults : List Fault} :
    (reach mode number source faults).faults = [] ↔
      faults = [] ∧ (lex mode source).faults = [] := by
  rw [reach, List.append_eq_nil_iff, List.map_eq_nil_iff]

theorem Stage.tokens_assign (hmode : config.mode = .strict) (table : List Assignment)
    (faults : List AssignmentFault) (stage : Stage) :
    (stage.assign config table faults).tokens =
      (lex .strict (stage.assign config table faults).source).body := by
  rw [← hmode]
  rfl

theorem Stage.tokens_sum (hmode : config.mode = .strict) (screenings : Option ScreeningRegistry)
    (stage : Stage) :
    (stage.sum config screenings).tokens =
      (lex .strict (stage.sum config screenings).source).body := by
  rw [← hmode]
  rfl

/-- **Pass 3 without a fault** rewrites the summations of what pass 2 has left without one. -/
theorem rewritten_sum {screenings : Option ScreeningRegistry} {stage : Stage}
    (htokens : stage.tokens = (lex .strict stage.source).body)
    (hread : (lex .strict stage.source).faults = [])
    (hfaults : (stage.sum config screenings).faults = [])
    (hasks : ∀ site ∈ Summation.sites (lex .strict stage.source).body, site.1.Asks)
    (hsuffixed : Summation.Suffixed screenings) :
    Summation.Rewritten (lex .strict stage.source).body
      (lex .strict (stage.sum config screenings).source).body := by
  have hexpand : (Summation.expandAll config screenings stage.source stage.tokens).2 = [] :=
    List.map_eq_nil_iff.mp (Stage.faults_reach_eq_nil_iff.mp hfaults).1
  have hfaultless := Summation.faultless_of_expandAll hexpand
  rw [htokens] at hfaultless
  have hpatch : (stage.sum config screenings).source =
      stage.source.patch (Summation.expansions config screenings
        (Summation.sites (lex .strict stage.source).body)) := by
    rw [← Summation.expandAll_eq_patch hfaultless, ← htokens]
    rfl
  obtain ⟨outs, hscans, hrewritten⟩ := Summation.exists_rewritten
    (scans_iff.mpr (rfl : (lex .strict stage.source).body = _)) rfl (no_error_of_faults hread)
    hfaultless hasks hsuffixed 0
  rw [hpatch]
  rwa [scans_iff.mp hscans] at hrewritten

/-- **Pass 1 without a fault** has met no malformed reference. -/
theorem wellFormed_of_inline {stage : Stage}
    (htokens : stage.tokens = (lex .strict stage.source).body)
    (hmention : Reference.mentionedIn stage.source = true)
    (hfaults : (stage.inline config (resolver registries config [])).faults = []) :
    ∀ occurrence ∈ Reference.occurrences (lex .strict stage.source).body,
      ∃ reference span, occurrence = .wellFormed reference span := by
  rw [Stage.inline, if_pos hmention, Reference.substitute_eq_spliceAll, htokens] at hfaults
  have hlog := List.map_eq_nil_iff.mp (Stage.faults_reach_eq_nil_iff.mp hfaults).1
  intro occurrence hoccurrence
  obtain ⟨reference, span, hmade, -⟩ := faultless_of_answers hlog occurrence hoccurrence
  exact ⟨reference, span, hmade⟩

/-- Pass 1 leaves a formula without a reference as it is. -/
theorem source_inline (registries : Registries) (config : Config) {stage : Stage}
    (htokens : stage.tokens = (lex .strict stage.source).body)
    (hnone : NoReference (lex .strict stage.source).body) :
    (stage.inline config (resolver registries config [])).source = stage.source := by
  rw [Stage.inline]
  split
  · rw [Reference.substitute_eq_spliceAll, htokens, noReference_iff.mp hnone]
    rfl
  · rfl

/-- A formula without a colon has no head of a reference. -/
theorem noReference_of_colon_not_mem {source : Text} (h : ':' ∉ source) :
    NoReference (lex .strict source).body := by
  rintro name slash path ⟨before, colon, slash', hbody, -, hcolon, -⟩
  have hmem : colon ∈ (lex .strict source).body := by
    rw [hbody]
    simp
  exact h ((scans_iff.mpr rfl : Lexer.Scans .boundary 0 source _).mem_of_isOperator hmem hcolon
    (by decide) (by decide))

/-! ### Runs without a fault -/

section

variable {screenings : Option ScreeningRegistry} {raw : Text} {cleaned inlined : Stage}

theorem noVariable_ofInlined (hmode : config.mode = .strict)
    (hfaults : (Run.ofInlined screenings config raw cleaned inlined).outcome.faults = []) :
    NoVariable (lex .strict
      (Run.ofInlined screenings config raw cleaned inlined).outcome.expanded).body := by
  obtain ⟨-, -, -, hundefined⟩ := Run.faultless_stages hfaults
  have hvariable := noVariable_of_undefinedVariables hundefined
  rw [Stage.tokens_sum hmode] at hvariable
  rw [Run.ofInlined_eq]
  exact hvariable

theorem rewritten_ofInlined (hmode : config.mode = .strict)
    (hsuffixed : Summation.Suffixed screenings)
    (hfaults : (Run.ofInlined screenings config raw cleaned inlined).outcome.faults = []) :
    let outcome := (Run.ofInlined screenings config raw cleaned inlined).outcome
    (∀ site ∈ Summation.sites (lex .strict outcome.substituted).body, site.1.Asks) →
      Summation.Rewritten (lex .strict outcome.substituted).body
        (lex .strict outcome.expanded).body := by
  obtain ⟨-, hassign, hsum, -⟩ := Run.faultless_stages hfaults
  have hread := (Stage.faults_reach_eq_nil_iff.mp hassign).2
  rw [hmode] at hread
  rw [Run.ofInlined_eq]
  intro outcome hasks
  exact rewritten_sum (Stage.tokens_assign hmode _ _ _) hread hsum hasks hsuffixed

theorem substituted_ofInlined_of_table
    (htable : (Run.ofInlined screenings config raw cleaned inlined).outcome.table = []) :
    (Run.ofInlined screenings config raw cleaned inlined).outcome.substituted = inlined.source := by
  rw [Run.substituted_ofInlined, htable, Run.inlined_ofInlined]
  rfl

end

/-- **Apart from what comes about later**, the expanded formula of a run without a fault is
self-contained.  It has no variable.  When every summation that is expanded asks for something, it
has no summation sign before a symbol, and is self-contained unless the formula that pass 2 has left
has the head of a reference.  When the cleaned formula mentions references, those that begin in it
are well-formed, so that all of them are replaced.  Pass 2 leaves no head when the cleaned formula
has none and assigns no variable, and when it and the formulas of the KPIs that it leads to only
refer, whatever variables they assign. -/
theorem selfContained_expanded (registries : Registries) (config : Config) (document : Text)
    (hmode : config.mode = .strict) (hsuffixed : Summation.Suffixed registries.screenings)
    (hfaults : (run registries config document).outcome.faults = []) :
    let outcome := (run registries config document).outcome
    let cleaned := (lex .strict outcome.cleaned).body
    let substituted := (lex .strict outcome.substituted).body
    let expanded := (lex .strict outcome.expanded).body
    NoVariable expanded ∧
      ((∀ site ∈ Summation.sites substituted, site.1.Asks) →
        NoSum expanded ∧ (NoReference substituted → SelfContained expanded)) ∧
      (Reference.mentionedIn outcome.cleaned = true →
        ∀ occurrence ∈ Reference.occurrences cleaned,
          ∃ reference span, occurrence = .wellFormed reference span) ∧
      (NoReference cleaned → outcome.table = [] → NoReference substituted) ∧
      (Run.OnlyRefers config document →
        (∀ id document', registries.Reaches config document id →
          registries.lookupKpi id = some document' → Run.OnlyRefers config.nested document') →
        NoReference substituted) := by
  intro outcome cleaned substituted expanded
  have honlyRefers (honly : Run.OnlyRefers config document)
      (hreached : ∀ id document', registries.Reaches config document id →
        registries.lookupKpi id = some document' → Run.OnlyRefers config.nested document') :
      NoReference substituted :=
    noReference_of_colon_not_mem (colon_not_mem_substituted hmode hsuffixed hfaults honly hreached)
  cases hlocate : Block.locate config.startPhrase (Block.mendPhrase document) with
  | noPhrase =>
      have houtcome : outcome = .ofBlock .noPhrase := by
        simp only [outcome, run, Run.ofDocument, hlocate]
        rfl
      have hexpanded : expanded = [] := by simp only [expanded, houtcome]; rfl
      have hsubstituted : substituted = [] := by simp only [substituted, houtcome]; rfl
      have hempty : Reference.mentionedIn [] ≠ true := by decide
      have hsum : NoSum [] := noSum_iff.mpr rfl
      have hvariable : NoVariable [] := List.forall_mem_nil _
      have hnone : NoReference [] := noReference_iff.mpr rfl
      rw [hexpanded, hsubstituted, houtcome]
      exact ⟨hvariable, fun _ => ⟨hsum, fun _ => ⟨hvariable, hsum, hnone⟩⟩,
        fun h => absurd h hempty, fun _ _ => hnone, fun _ _ => hnone⟩
  | flawed flaw =>
      have houtcome : outcome = ((Run.located (.flawed flaw)).record config.mode
          (.structural flaw)).outcome := by
        simp only [outcome, run, Run.ofDocument, hlocate]
      have hfaults' : outcome.faults = [] := hfaults
      rw [houtcome] at hfaults'
      cases hfaults'
  | formula raw =>
      have hrun : run registries config document =
          Run.ofInlined registries.screenings config raw (Stage.clean config raw)
            ((Stage.clean config raw).inline config (resolver registries config [])) := by
        simp only [run, Run.ofDocument, hlocate]
        rfl
      have houtcome : outcome = (Run.ofInlined registries.screenings config raw
          (Stage.clean config raw) _).outcome := congrArg Run.outcome hrun
      have htokens : (Stage.clean config raw).tokens =
          (lex .strict (Stage.clean config raw).source).body := by rw [← hmode]; rfl
      rw [hrun] at hfaults
      refine ⟨?_, fun hasks => ?_, fun hmention => ?_, fun hnone htable => ?_, honlyRefers⟩
      · simp only [expanded, houtcome]
        exact noVariable_ofInlined hmode hfaults
      · simp only [substituted, expanded, houtcome] at hasks ⊢
        have hrewritten := rewritten_ofInlined hmode hsuffixed hfaults hasks
        have hsum := noSum_iff.mpr hrewritten.sites_eq_nil
        refine ⟨hsum, fun hnone => ⟨noVariable_ofInlined hmode hfaults, hsum, ?_⟩⟩
        exact noReference_iff.mpr (hrewritten.occurrences_eq_nil (noReference_iff.mp hnone))
      · simp only [cleaned, houtcome, Run.cleaned_ofInlined] at hmention ⊢
        exact wellFormed_of_inline htokens hmention (Run.faultless_stages hfaults).1
      · simp only [cleaned, substituted, houtcome, Run.cleaned_ofInlined] at hnone htable ⊢
        rw [substituted_ofInlined_of_table htable, source_inline registries config htokens hnone]
        exact hnone

/-- The value of `$x` completes the head of a reference, and the sum over `A` of nothing leaves a
sign before `B`. -/
theorem not_selfContained_expanded :
    let completed := (run ⟨none, none⟩ .default
      "eNB Counter Method: BEGIN Formula:$x $x=//foo END".toList).outcome
    let registries : Registries := ⟨none, some ⟨[⟨['A'], ['R', '1'], none, 0, ['s']⟩]⟩⟩
    let config : Config := { Config.default with release := ['R', '1'] }
    let vanished := (run registries config "eNB Counter Method: BEGIN ~~A()B END".toList).outcome
    (Config.default.mode = .strict ∧ Summation.Suffixed none ∧ completed.faults = [] ∧
        completed.block = .formula "Formula:$x $x=//foo".toList ∧
        completed.expanded = "Formula://foo".toList ∧
        ¬ NoReference (lex .strict completed.expanded).body) ∧
      config.mode = .strict ∧ Summation.Suffixed registries.screenings ∧ vanished.faults = [] ∧
        vanished.block = .formula "~~A()B".toList ∧ vanished.expanded = "~B".toList ∧
        ¬ NoSum (lex .strict vanished.expanded).body := by
  intro completed registries config vanished
  obtain ⟨hfaults, hblock, hexpanded⟩ : completed.faults = [] ∧
      completed.block = .formula "Formula:$x $x=//foo".toList ∧
      completed.expanded = "Formula://foo".toList := by decide +kernel
  obtain ⟨hfaults', hblock', hexpanded'⟩ : vanished.faults = [] ∧
      vanished.block = .formula "~~A()B".toList ∧ vanished.expanded = "~B".toList := by
    decide +kernel
  have hsuffixed : Summation.Suffixed registries.screenings :=
    Summation.suffixed_some
      (List.forall_mem_singleton.mpr (List.forall_mem_singleton.mpr (by decide)))
  refine ⟨⟨rfl, Summation.suffixed_none, hfaults, hblock, hexpanded, fun h => ?_⟩,
    rfl, hsuffixed, hfaults', hblock', hexpanded', fun h => ?_⟩
  · rw [hexpanded, noReference_iff] at h
    exact absurd h (by decide +kernel)
  · rw [hexpanded', noSum_iff] at h
    exact absurd h (by decide +kernel)

/-- A reference, a variable and a summation, all put in. -/
theorem selfContained_expanded_of_each :
    let counted := "eNB Counter Method: BEGIN B END".toList
    let registries : Registries :=
      ⟨some ⟨[(['K'], counted)]⟩, some ⟨[⟨['A'], ['R', '1'], none, 0, ['s']⟩]⟩⟩
    let config : Config := { Config.default with release := ['R', '1'] }
    let document :=
      "eNB Counter Method: BEGIN (Formula://EnbCounterMethod/K)*$x+~A(0) $x=2 END".toList
    let outcome := (run registries config document).outcome
    config.mode = .strict ∧ Summation.Suffixed registries.screenings ∧ outcome.faults = [] ∧
      (∀ site ∈ Summation.sites (lex .strict outcome.substituted).body, site.1.Asks) ∧
      Run.OnlyRefers config document ∧ Run.OnlyRefers config.nested counted ∧
      outcome.cleaned = "(Formula://EnbCounterMethod/K)*$x+~A(0) $x=2".toList ∧
      outcome.expanded = "(B)*2+(A.s)".toList ∧
      SelfContained (lex .strict outcome.expanded).body := by
  intro counted registries config document outcome
  have hsuffixed : Summation.Suffixed registries.screenings :=
    Summation.suffixed_some
      (List.forall_mem_singleton.mpr (List.forall_mem_singleton.mpr (by decide)))
  obtain ⟨hfaults, hcleaned, hsubstituted, hexpanded⟩ : outcome.faults = [] ∧
      outcome.cleaned = "(Formula://EnbCounterMethod/K)*$x+~A(0) $x=2".toList ∧
      outcome.substituted = "(B)*2+~A(0)".toList ∧ outcome.expanded = "(B)*2+(A.s)".toList := by
    decide +kernel
  have hasks : ∀ site ∈ Summation.sites (lex .strict outcome.substituted).body, site.1.Asks := by
    rw [hsubstituted]
    unfold Summation.Asks
    decide +kernel
  have honly : Run.OnlyRefers config document := by
    have hlocate : Block.locate config.startPhrase (Block.mendPhrase document) =
        .formula "(Formula://EnbCounterMethod/K)*$x+~A(0) $x=2".toList := by decide +kernel
    refine Run.onlyRefers_of_locate hlocate ?_
    unfold Stage.OnlyRefers
    decide +kernel
  have hcounted : Run.OnlyRefers config.nested counted := by
    have hlocate : Block.locate config.nested.startPhrase (Block.mendPhrase counted) =
        .formula ['B'] := by decide +kernel
    refine Run.onlyRefers_of_locate hlocate ?_
    unfold Stage.OnlyRefers
    decide +kernel
  have hreached : ∀ id found, registries.Reaches config document id →
      registries.lookupKpi id = some found → Run.OnlyRefers config.nested found := by
    intro id found _ hlookup
    have hmem : (id, found) ∈ [(['K'], counted)] := Text.mem_of_lookup hlookup
    obtain rfl := (Prod.mk.inj (List.mem_singleton.mp hmem)).2
    exact hcounted
  obtain ⟨-, hsums, -, -, hnone⟩ :=
    selfContained_expanded registries config document rfl hsuffixed hfaults
  exact ⟨rfl, hsuffixed, hfaults, hasks, honly, hcounted, hcleaned, hexpanded,
    (hsums hasks).2 (hnone honly hreached)⟩

end CounterFormula
