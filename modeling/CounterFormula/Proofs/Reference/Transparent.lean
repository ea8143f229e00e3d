import CounterFormula.Proofs.Reference.Surroundings
import CounterFormula.Proofs.Token.Patched

/-!
# Reference — Transparent

What a formula reads as when its references are replaced.  In strict mode nothing stands between the
last token of a well-formed reference and its closing parenthesis but blanks, so that every
reference is framed.  Whatever the resolver answers, the answer reads as it does on its own, and no
token outside a reference is split, merged or read as one of another class.

* `framed_of_mem_sites`: a well-formed reference is framed.
* `spellings_substitute`: the tokens of a formula with its references replaced.
-/

namespace CounterFormula

/-- Before a closing parenthesis no word goes on. -/
theorem Lexer.Scans.stops_of_closing {place : Place} {start : Nat} {text : Text} {token : Token}
    {tokens : List Token} (h : Scans place start text (token :: tokens))
    (hclosing : token.isOperator ')' = true) : Stops inWord text := by
  cases h with
  | blank hc _ => exact stops_cons.mpr (inWord_of_isBlank hc)
  | sign hc _ => exact stops_cons.mpr (inWord_of_isOperator hc)
  | run hc _ _ _ =>
      rw [not_isOperator_runToken hc (by decide)] at hclosing
      cases hclosing
  | error _ _ _ _ => cases hclosing

namespace Reference

variable {σ : Type} {source : Text} {reference : Reference} {span : Span}

/-- **A well-formed reference** is framed, in strict mode. -/
theorem framed_of_mem_sites (h : (reference, span) ∈ sites (lex .strict source).body) :
    Framed source span := by
  obtain ⟨_, -, -, before, last, closing, more, htokens, -, hclosing, hspan⟩ :=
    exists_tokens_of_mem_sites h
  obtain ⟨hbefore, hhead, -⟩ := surroundings_of_mem_sites h
  refine ⟨hbefore, ⟨'F', .symbol, hhead, .symbol (by decide)⟩, ?_⟩
  have hscans : Lexer.Scans .boundary 0 source (lex .strict source).body := scans_iff.mpr rfl
  rw [htokens] at hscans
  obtain ⟨-, place, hbehind⟩ := hscans.behind rfl
  rw [hspan]
  exact hbehind.stops_of_closing hclosing

/-- **Replacing references is transparent** for the tokens of a formula, in strict mode.  The tokens
of the formula with its references replaced are its own tokens, where those of each reference that
is well-formed by the grammar give way to the tokens of the resolver's answer, read on its own. -/
theorem spellings_substitute (resolver : Resolver σ) (source : Text) (state : σ) :
    let tokens := (lex .strict source).body
    let patches := (answers resolver (occurrences tokens) state).1
    (∀ reference span,
        (reference, span) ∈ sites tokens ↔ Occurs tokens (.wellFormed reference span)) ∧
      patches.map Prod.fst = (sites tokens).map Prod.snd ∧
      spellings .strict (substitute resolver source tokens state).1 =
        tokens.flatMap (replacement .strict patches) := by
  intro tokens patches
  have hspans : patches.map Prod.fst = (sites tokens).map Prod.snd :=
    spans_answers resolver (occurrences tokens) state
  have hlaid : Span.Laid 0 source.length (patches.map Prod.fst) := by
    rw [hspans]
    exact laid_span_sites .strict source
  have hframed : ∀ patch ∈ patches, Framed source patch.1 := by
    intro patch hpatch
    have hspan : patch.1 ∈ patches.map Prod.fst := List.mem_map_of_mem hpatch
    rw [hspans] at hspan
    obtain ⟨⟨reference, span⟩, hsite, rfl⟩ := List.mem_map.mp hspan
    exact framed_of_mem_sites hsite
  refine ⟨fun reference span => mem_sites_iff, hspans, ?_⟩
  rw [congrArg Prod.fst (substitute_eq_patch_answers resolver .strict source state)]
  exact spellings_patch .strict hlaid hframed

end Reference

end CounterFormula
