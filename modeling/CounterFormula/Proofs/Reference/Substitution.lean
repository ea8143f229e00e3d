import CounterFormula.Proofs.Reference.Occurrence

/-!
# Reference — Substitution

What `substitute` does to a formula, as one replacement.  It works through the tokens from the
right and splices, at the offsets of the text as it was, what the resolver answers; the resolver
may change its state with every answer.

`answers` says what a resolver makes of the occurrences in a formula: the texts for the
well-formed ones, and its state in the end, the last occurrence first.

* `substitute_eq_spliceAll`: `substitute` asks and tells the resolver just that.
* `substitute_eq_patch`: its text is the formula with the well-formed references replaced, all
  at once.
-/

namespace CounterFormula.Reference

variable {σ : Type}

/-- The texts that a resolver gives for the well-formed ones of `occurrences`, each with the span
it stands for, and the resolver's state in the end.  The last occurrence comes first. -/
def answers (resolver : Resolver σ) : List Occurrence → σ → List (Span × Text) × σ
  | [], state => ([], state)
  | .wellFormed reference span :: rest, state =>
    let (patches, state) := answers resolver rest state
    let (new, state) := resolver.resolve reference state
    ((span, new) :: patches, state)
  | .malformed fault _ :: rest, state =>
    let (patches, state) := answers resolver rest state
    (patches, resolver.report fault state)

theorem answers_wellFormed (resolver : Resolver σ) (reference : Reference) (span : Span)
    (rest : List Occurrence) (state : σ) :
    answers resolver (.wellFormed reference span :: rest) state =
      ((span, (resolver.resolve reference (answers resolver rest state).2).1) ::
          (answers resolver rest state).1,
        (resolver.resolve reference (answers resolver rest state).2).2) := rfl

theorem answers_malformed (resolver : Resolver σ) (fault : ReferenceFault) (span : Span)
    (rest : List Occurrence) (state : σ) :
    answers resolver (.malformed fault span :: rest) state =
      ((answers resolver rest state).1, resolver.report fault (answers resolver rest state).2) :=
  rfl

/-- **`substitute`** splices the resolver's answers, the last one first. -/
theorem substitute_eq_spliceAll (resolver : Resolver σ) (source : Text) (tokens : List Token)
    (state : σ) :
    substitute resolver source tokens state =
      (Text.spliceAll source (answers resolver (occurrences tokens) state).1,
        (answers resolver (occurrences tokens) state).2) := by
  induction tokens with
  | nil => rfl
  | cons token rest ih =>
      rw [substitute, ih]
      cases hhead : afterHead? (token :: rest) with
      | none => rw [occurrences_of_afterHead?_eq_none hhead]
      | some path =>
          obtain ⟨name, colon, slash, slash', htokens, -⟩ := afterHead?_eq_some hhead
          obtain ⟨rfl, rfl⟩ := List.cons.inj htokens
          rw [occurrences_of_afterHead? hhead, occurrences_afterHead hhead]
          rw [Occurrence.ofPath]
          dsimp only
          cases hread : readPath path with
          | error fault => rfl
          | ok found => rfl

/-! ### Calls -/

/-- One call of a resolver. -/
inductive Call where
  | resolve (reference : Reference)
  | report (fault : ReferenceFault)
  deriving DecidableEq, Repr

/-- The call that an occurrence asks for. -/
def Occurrence.call : Occurrence → Call
  | wellFormed reference _ => .resolve reference
  | malformed fault _ => .report fault

/-- `resolver`, with its calls written down in their order. -/
def Resolver.recorded (resolver : Resolver σ) : Resolver (σ × List Call) where
  resolve reference state :=
    let (new, next) := resolver.resolve reference state.1
    (new, next, state.2 ++ [.resolve reference])
  report fault state := (resolver.report fault state.1, state.2 ++ [.report fault])

theorem answers_recorded (resolver : Resolver σ) (occurrences : List Occurrence) (state : σ)
    (calls : List Call) :
    answers resolver.recorded occurrences (state, calls) =
      ((answers resolver occurrences state).1, (answers resolver occurrences state).2,
        calls ++ occurrences.reverse.map Occurrence.call) := by
  induction occurrences with
  | nil => rw [List.reverse_nil, List.map_nil, List.append_nil]; rfl
  | cons occurrence rest ih =>
      rw [List.reverse_cons, List.map_append, ← List.append_assoc]
      cases occurrence with
      | wellFormed reference span =>
          rw [answers_wellFormed, ih, answers_wellFormed]
          rfl
      | malformed fault span =>
          rw [answers_malformed, ih, answers_malformed]
          rfl

/-! ### One replacement -/

/-- A well-formed reference, with its span. -/
def Occurrence.site? : Occurrence → Option (Reference × Span)
  | wellFormed reference span => some (reference, span)
  | malformed _ _ => none

/-- The well-formed references among `tokens`, each with its span. -/
def sites (tokens : List Token) : List (Reference × Span) :=
  (occurrences tokens).filterMap Occurrence.site?

/-- **The sites** are the well-formed references of the grammar. -/
theorem mem_sites_iff {tokens : List Token} {reference : Reference} {span : Span} :
    (reference, span) ∈ sites tokens ↔ Occurs tokens (.wellFormed reference span) := by
  rw [← mem_occurrences_iff, sites, List.mem_filterMap]
  constructor
  · rintro ⟨occurrence, hoccurrence, hmade⟩
    cases occurrence <;> cases hmade
    exact hoccurrence
  · intro h
    exact ⟨_, h, rfl⟩

/-- The resolver answers the well-formed references, and no others. -/
theorem spans_answers (resolver : Resolver σ) (occurrences : List Occurrence) (state : σ) :
    (answers resolver occurrences state).1.map Prod.fst =
      (occurrences.filterMap Occurrence.site?).map Prod.snd := by
  induction occurrences with
  | nil => rfl
  | cons occurrence rest ih =>
      cases occurrence with
      | wellFormed reference span =>
          rw [answers_wellFormed, List.map_cons, ih]
          rfl
      | malformed fault span =>
          rw [answers_malformed, ih]
          rfl

theorem sites_sublist (occurrences : List Occurrence) :
    ((occurrences.filterMap Occurrence.site?).map Prod.snd).Sublist
      (occurrences.map Occurrence.span) := by
  induction occurrences with
  | nil => exact .slnil
  | cons occurrence rest ih =>
      cases occurrence with
      | wellFormed reference span => exact ih.cons_cons span
      | malformed fault span => exact ih.cons span

/-- What the resolver answers can be spliced in at once. -/
theorem spliceAll_answers (resolver : Resolver σ) (mode : Mode) (source : Text) (state : σ) :
    let patches := (answers resolver (occurrences (lex mode source).body) state).1
    Text.spliceAll source patches = source.patch patches := by
  intro patches
  refine Text.spliceAll_eq_patch ?_
  rw [spans_answers]
  exact (laid_span_occurrences (laid_span_body mode source)).sublist (sites_sublist _)

/-- **`substitute`** replaces the well-formed references all at once. -/
theorem substitute_eq_patch_answers (resolver : Resolver σ) (mode : Mode) (source : Text)
    (state : σ) :
    let tokens := (lex mode source).body
    substitute resolver source tokens state =
      (source.patch (answers resolver (occurrences tokens) state).1,
        (answers resolver (occurrences tokens) state).2) := by
  intro tokens
  rw [substitute_eq_spliceAll, spliceAll_answers]

/-- **Simultaneous substitution.**  What is found in a formula is what occurs by the grammar, and
the occurrences do not overlap: they lie in it one after the other, a malformed one as the four
tokens of its head.  `substitute` gives the formula with the well-formed references, and nothing
else, replaced at once by the texts that the resolver answers.  The resolver is called once for each
occurrence, from the right: a well-formed reference is resolved, a malformed one reported. -/
theorem substitute_eq_patch (resolver : Resolver σ) (mode : Mode) (source : Text) (state : σ) :
    let tokens := (lex mode source).body
    let (patches, final) := answers resolver (occurrences tokens) state
    (∀ occurrence, occurrence ∈ occurrences tokens ↔ Occurs tokens occurrence) ∧
      Span.Laid 0 source.length ((occurrences tokens).map Occurrence.span) ∧
      substitute resolver source tokens state = (source.patch patches, final) ∧
      patches.map Prod.fst = (sites tokens).map Prod.snd ∧
      substitute resolver.recorded source tokens (state, []) =
        (source.patch patches, final, (occurrences tokens).reverse.map Occurrence.call) := by
  intro tokens
  refine ⟨fun occurrence => mem_occurrences_iff, laid_span_occurrences (laid_span_body mode source),
    substitute_eq_patch_answers resolver mode source state, spans_answers resolver _ state, ?_⟩
  rw [substitute_eq_spliceAll, answers_recorded, spliceAll_answers, List.nil_append]

end CounterFormula.Reference
