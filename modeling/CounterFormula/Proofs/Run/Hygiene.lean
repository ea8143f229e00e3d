import CounterFormula.Proofs.Assignment.Sweep
import CounterFormula.Proofs.Reference.Surroundings
import CounterFormula.Proofs.Run.Inner
import CounterFormula.Proofs.Run.SelfContained

/-!
# Run — Hygiene

What the assignments of a formula do to the texts that are put in for its references.  Pass 2
replaces the names that the formula assigns wherever they occur, also in what pass 1 has put in:
a KPI's symbol may hold a name of the formula that refers to it, and so may what the single sweep
over a KPI's variables leaves.

A text that is put in stands between boundaries, so no name reaches across its ends, and its fate
does not depend on what stands around it.  In relaxed mode that needs a formula in which no sigil
directly follows the reference: the value of a name behind the text may complete another one in it.

* `exists_substituted_eq_sweep`: pass 2 sweeps a text that is put in on its own.
* `sigil_not_mem_standsFor`: what a whole formula without a fault stands for has a sigil in its
  symbols only.
-/

namespace CounterFormula

variable {registries : Registries} {config : Config} {chain : List Text} {reference : Reference}

/-! ### What is put in -/

/-- What pass 1 puts in for a reference. -/
def standsFor (registries : Registries) (config : Config) (chain : List Text)
    (reference : Reference) : Text :=
  (resolve registries config chain reference .empty).1

/-- **Pass 1** puts in for every reference what it stands for. -/
theorem Stage.source_inline_eq_patch {stage : Stage}
    (htokens : stage.tokens = (lex config.mode stage.source).body)
    (hmention : Reference.mentionedIn stage.source = true) :
    (stage.inline config (resolver registries config chain)).source =
      Text.patch stage.source ((Reference.sites (lex config.mode stage.source).body).map
        (Reference.put (standsFor registries config chain))) := by
  rw [inline, if_pos hmention, htokens, Reference.substitute_eq_patch_answers, answers_resolver]
  rfl

theorem Stage.tokens_inline {stage : Stage} {resolver : Reference.Resolver Log}
    (hmention : Reference.mentionedIn stage.source = true) :
    (stage.inline config resolver).tokens =
      (lex config.mode (stage.inline config resolver).source).body := by
  rw [inline, if_pos hmention]
  rfl

theorem Run.table_ofFormula {resolver : Reference.Resolver Log}
    {screenings : Option ScreeningRegistry} {raw : Text}
    (hmention : Reference.mentionedIn (Stage.clean config raw).source = true) :
    let outcome := (ofFormula resolver screenings config raw).outcome
    outcome.table = (Assignment.extract (lex config.mode outcome.inlined).body).1 := by
  dsimp only [ofFormula]
  rw [table_ofInlined, inlined_ofInlined, Stage.tokens_inline hmention]

/-- **What a whole formula without a fault stands for** has a sigil in its symbols only. -/
theorem sigil_not_mem_standsFor (hmode : config.mode = .strict) (hwhole : reference.wanted = none)
    (hfaults : (resolve registries config chain reference .empty).2.faults = [])
    (hsymbols : ∀ token ∈ (lex .strict (standsFor registries config chain reference)).body,
      token.isSymbol = true → '$' ∉ token.text) :
    '$' ∉ standsFor registries config chain reference := by
  obtain ⟨-, _, _, -, -, hfaultless, htext⟩ := exists_ofFormula_of_faults_resolve hfaults
  rw [standsFor, htext, Run.textFor, hwhole] at hsymbols ⊢
  have hmode' : config.nested.mode = .strict := hmode
  have hvariable := noVariable_ofInlined hmode' hfaultless
  obtain ⟨-, -, hexpanded, -⟩ := Run.faultless_stages hfaultless
  have hread := (Stage.faults_reach_eq_nil_iff.mp hexpanded).2
  rw [hmode'] at hread
  rw [Run.ofInlined_eq] at hvariable
  rw [Run.ofFormula, Run.ofInlined_eq] at hsymbols ⊢
  intro hsigil
  obtain ⟨token, htoken, hsymbol, hname⟩ := (scans_iff.mpr rfl : Lexer.Scans .boundary 0 _ _)
    |>.exists_symbol (no_error_of_faults hread) hvariable hsigil
  exact hsymbols token htoken hsymbol hname

/-! ### What pass 2 makes of it -/

variable {document : Text} {before after : List (Reference × Span)} {span : Span}

/-- Pass 2 of the run over a formula sweeps a text that is put in on its own. -/
theorem Run.exists_substituted_ofFormula {raw : Text}
    (hmention : Reference.mentionedIn (Stage.clean config raw).source = true)
    (hsites : Reference.sites (lex config.mode (Stage.clean config raw).source).body =
      before ++ (reference, span) :: after)
    (hbehind : config.mode = .relaxed →
      ((Stage.clean config raw).source.drop (span.last + 1)).head? ≠ some '$') :
    let outcome := (ofFormula (resolver registries config chain) registries.screenings config
      raw).outcome
    let put := Reference.put (standsFor registries config chain)
    let front := Text.patch (outcome.cleaned.take span.first) (before.map put)
    let text := standsFor registries config chain reference
    let back := Text.patchFrom outcome.cleaned (span.last + 1) (after.map put)
    outcome.inlined = front ++ text ++ back ∧
      ((front ++ text).length ≤ Assignment.cut outcome.inlined outcome.table →
        ∃ behind, outcome.substituted = Assignment.sweep outcome.values front ++
          Assignment.sweep outcome.values text ++ behind) := by
  intro outcome put front text back
  have hcleaned : outcome.cleaned = (Stage.clean config raw).source := cleaned_ofInlined
  have hpatched : ((Stage.clean config raw).inline config (resolver registries config chain)).source
      = _ := Stage.source_inline_eq_patch rfl hmention
  rw [← hcleaned] at hsites hbehind hpatched
  obtain ⟨hpatch, hfront, blanks, c, rest, hback, hsigil⟩ :=
    Reference.patch_of_sites (standsFor registries config chain) hsites
  have hc : c ≠ '$' := fun heq => hbehind (hsigil heq).1 (hsigil heq).2
  have hinlined : outcome.inlined = front ++ text ++ back :=
    (inlined_ofInlined.trans hpatched).trans hpatch
  have htable : outcome.table = (Assignment.extract (lex config.mode outcome.inlined).body).1 :=
    table_ofFormula hmention
  refine ⟨hinlined, fun hcut => ?_⟩
  rw [htable] at hcut
  obtain ⟨behind, hswept⟩ := Assignment.exists_substitute_eq hfront hback hc hinlined hcut
  rw [← htable] at hswept
  have hsubstituted : outcome.substituted = Assignment.substitute outcome.inlined outcome.table :=
    substituted_ofInlined
  have hvalues : outcome.values = Assignment.values outcome.inlined outcome.table :=
    values_ofInlined
  rw [hsubstituted, hvalues]
  exact ⟨behind, hswept⟩

/-- A run that mentions references has a formula. -/
theorem exists_formula_of_mentionedIn
    (hmention : Reference.mentionedIn
      (runUnder registries config chain document).outcome.cleaned = true) :
    ∃ raw, runUnder registries config chain document =
      Run.ofFormula (resolver registries config chain) registries.screenings config raw := by
  have hempty : Reference.mentionedIn [] ≠ true := by decide
  rw [runUnder, Run.ofDocument] at hmention ⊢
  cases hlocate : Block.locate config.startPhrase (Block.mendPhrase document) with
  | noPhrase =>
      rw [hlocate] at hmention
      exact absurd hmention hempty
  | flawed flaw =>
      rw [hlocate] at hmention
      exact absurd hmention hempty
  | formula raw => exact ⟨raw, rfl⟩

/-- **Texts that are put in** are swept on their own.  In a formula that pass 1 replaces references
in, whatever it assigns, what stands for a reference before the first assignment is left by pass 2
with every name that is assigned replaced in it, one after the other, and nothing else done to it:
it is left as it is when none of the names occurs in it, and so when it stands for a whole formula
that has met no fault and has no sigil in its symbols.  In relaxed mode no sigil may directly follow
the reference; in strict mode none can. -/
theorem exists_substituted_eq_sweep (registries : Registries) (config : Config)
    (chain : List Text) (document : Text) {before after : List (Reference × Span)}
    {reference : Reference} {span : Span}
    (hmention : Reference.mentionedIn
      (runUnder registries config chain document).outcome.cleaned = true)
    (hsites : Reference.sites (lex config.mode
        (runUnder registries config chain document).outcome.cleaned).body =
      before ++ (reference, span) :: after)
    (hbehind : config.mode = .relaxed →
      ((runUnder registries config chain document).outcome.cleaned.drop (span.last + 1)).head? ≠
        some '$') :
    let outcome := (runUnder registries config chain document).outcome
    let put := Reference.put (standsFor registries config chain)
    let front := Text.patch (outcome.cleaned.take span.first) (before.map put)
    let text := standsFor registries config chain reference
    let back := Text.patchFrom outcome.cleaned (span.last + 1) (after.map put)
    outcome.inlined = front ++ text ++ back ∧
      ((front ++ text).length ≤ Assignment.cut outcome.inlined outcome.table →
        ∃ behind, outcome.substituted = Assignment.sweep outcome.values front ++
          Assignment.sweep outcome.values text ++ behind) ∧
      ((∀ value ∈ outcome.values, ¬ value.1 <:+: text) →
        Assignment.sweep outcome.values text = text) ∧
      (config.mode = .strict → reference.wanted = none →
        (resolve registries config chain reference .empty).2.faults = [] →
          (∀ token ∈ (lex .strict text).body, token.isSymbol = true → '$' ∉ token.text) →
            Assignment.sweep outcome.values text = text) := by
  obtain ⟨raw, hrun⟩ := exists_formula_of_mentionedIn hmention
  rw [hrun] at hmention hsites hbehind ⊢
  rw [Run.ofFormula, Run.cleaned_ofInlined] at hmention hsites hbehind
  intro outcome put front text back
  obtain ⟨hinlined, hswept⟩ := Run.exists_substituted_ofFormula hmention hsites hbehind
  refine ⟨hinlined, hswept, Assignment.sweep_eq_self, fun hmode hwhole hfaults hsymbols => ?_⟩
  have hsigil := sigil_not_mem_standsFor hmode hwhole hfaults hsymbols
  refine Assignment.sweep_eq_self fun value hvalue hoccurs => hsigil (hoccurs.subset ?_)
  have htable : outcome.table = (Assignment.extract (lex config.mode outcome.inlined).body).1 :=
    Run.table_ofFormula hmention
  have hvalues : outcome.values = Assignment.values outcome.inlined outcome.table :=
    Run.values_ofInlined
  rw [hvalues, htable] at hvalue
  exact Assignment.sigil_mem_of_mem_values hvalue

/-- Two references: in what stands for `L` the name `$x` occurs, and in what stands for `K` none. -/
theorem exists_substituted_eq_sweep_of_whole :
    let registries : Registries :=
      ⟨some ⟨[(['K'], "eNB Counter Method: BEGIN A*B END".toList),
        (['L'], "eNB Counter Method: BEGIN C$x END".toList)]⟩, none⟩
    let document := "eNB Counter Method: BEGIN (Formula://EnbCounterMethod/L)+$x*".toList ++
      "(Formula://EnbCounterMethod/K) $x=2 END".toList
    let outcome := (runUnder registries .default [] document).outcome
    let put := Reference.put (standsFor registries .default [])
    let before : List (Reference × Span) := [(⟨['L'], none⟩, ⟨1, 28⟩)]
    let reference : Reference := ⟨['K'], none⟩
    let front := Text.patch (outcome.cleaned.take 35) (before.map put)
    let text := standsFor registries .default [] reference
    Reference.mentionedIn outcome.cleaned = true ∧
      Reference.sites (lex .strict outcome.cleaned).body = before ++ [(reference, ⟨35, 62⟩)] ∧
      (front ++ text).length ≤ Assignment.cut outcome.inlined outcome.table ∧
      (resolve registries .default [] reference .empty).2.faults = [] ∧
      (∀ token ∈ (lex .strict text).body, token.isSymbol = true → '$' ∉ token.text) ∧
      (∀ value ∈ outcome.values, ¬ value.1 <:+: text) ∧
      front = "(C$x)+$x*(".toList ∧ text = "A*B".toList ∧
      (∃ back, outcome.inlined = front ++ text ++ back) ∧
      Assignment.sweep outcome.values text = text ∧
      ∃ behind, outcome.substituted = Assignment.sweep outcome.values front ++ text ++ behind := by
  intro registries document outcome put before reference front text
  obtain ⟨hmention, hsites, hcut, hfaults, hsymbols, hvalues, hfront, htext⟩ :
      Reference.mentionedIn outcome.cleaned = true ∧
        Reference.sites (lex .strict outcome.cleaned).body = before ++ [(reference, ⟨35, 62⟩)] ∧
        (front ++ text).length ≤ Assignment.cut outcome.inlined outcome.table ∧
        (resolve registries .default [] reference .empty).2.faults = [] ∧
        (∀ token ∈ (lex .strict text).body, token.isSymbol = true → '$' ∉ token.text) ∧
        (∀ value ∈ outcome.values, ¬ value.1 <:+: text) ∧
        front = "(C$x)+$x*(".toList ∧ text = "A*B".toList := by
    decide +kernel
  obtain ⟨hinlined, hswept, hunnamed, hwhole⟩ :=
    exists_substituted_eq_sweep registries .default [] document hmention hsites nofun
  obtain ⟨behind, hbehind⟩ := hswept hcut
  rw [hunnamed hvalues] at hbehind
  exact ⟨hmention, hsites, hcut, hfaults, hsymbols, hvalues, hfront, htext, ⟨_, hinlined⟩,
    hwhole rfl rfl hfaults hsymbols, behind, hbehind⟩

/-- A symbol of the KPI's formula holds the name that the formula referring to it assigns; and in
relaxed mode the value of the name that directly follows a reference completes another one, which
does not occur in the text that is put in. -/
theorem not_infix_substituted :
    let registries : Registries :=
      ⟨some ⟨[(['K'], "eNB Counter Method: BEGIN A$x END".toList)]⟩, none⟩
    let reference : Reference := ⟨['K'], none⟩
    let text := standsFor registries .default [] reference
    let outcome := (run registries .default
      "eNB Counter Method: BEGIN (Formula://EnbCounterMethod/K) $x=1 END".toList).outcome
    let registries' : Registries :=
      ⟨some ⟨[(['K'], "eNB Counter Method: BEGIN 1 $v=+$a END".toList)]⟩, none⟩
    let reference' : Reference := ⟨['K'], some "$v".toList⟩
    let relaxed : Config := { Config.default with mode := .relaxed }
    let text' := standsFor registries' relaxed [] reference'
    let outcome' := (run registries' relaxed
      "eNB Counter Method: BEGIN (Formula://EnbCounterMethod/K/$v$w) $w=b $ab=9 END".toList).outcome
    (Reference.sites (lex .strict outcome.cleaned).body = [(reference, ⟨1, 28⟩)] ∧
        (resolve registries .default [] reference .empty).2.faults = [] ∧
        text = "A$x".toList ∧ outcome.inlined = "(A$x) $x=1".toList ∧
        1 + text.length ≤ Assignment.cut outcome.inlined outcome.table ∧
        outcome.substituted = "(A1)".toList ∧ ¬ text <:+: outcome.substituted) ∧
      Reference.sites (lex .relaxed outcome'.cleaned).body = [(reference', ⟨1, 31⟩)] ∧
        (resolve registries' relaxed [] reference' .empty).2.faults = [] ∧
        text' = "+$a".toList ∧ outcome'.inlined = "(+$a$w) $w=b $ab=9".toList ∧
        1 + text'.length ≤ Assignment.cut outcome'.inlined outcome'.table ∧
        (∀ value ∈ outcome'.values, ¬ value.1 <:+: text') ∧
        outcome'.substituted = "(+9)".toList ∧ ¬ text' <:+: outcome'.substituted := by
  decide +kernel

end CounterFormula
