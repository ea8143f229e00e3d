import CounterFormula.Assignment
import CounterFormula.Proofs.Reference.Substitution
import CounterFormula.Proofs.Token.Surroundings

/-!
# Reference — Stand-in

The texts that stand in for what a reference does not give: the placeholder of the reference, and
the marker of a variable that is not defined.  Both are meant to be one symbol, a stem with the id
and the name put behind it.  All that a variable is spelled with carries a symbol on, and so does
all that an id is spelled with but for one character, which begins a symbol and carries none on.

* `readsAsSymbol_append_iff`: what stands behind a stem reads as the rest of one symbol when it
  carries a symbol on.
* `readsAsSymbol_missing`: the marker of a variable does.
* `readsAsSymbol_placeholder_iff`: the placeholder of a reference does, unless its id begins with
  that character.
-/

namespace CounterFormula

open Lexer (continuesSymbol startsSymbol)

/-- The whole of `text` reads as one symbol, without a fault. -/
def ReadsAsSymbol (text : Text) : Prop :=
  lex .strict text = ⟨[.ofRun .symbol 0 text], text.length, []⟩

instance (text : Text) : Decidable (ReadsAsSymbol text) :=
  inferInstanceAs (Decidable (_ = _))

theorem ReadsAsSymbol.spelled {text : Text} (h : ReadsAsSymbol text) :
    ∃ first more, text = first :: more ∧ startsSymbol first = true ∧
      ∀ c ∈ more, continuesSymbol c = true := by
  have hscans : Lexer.Scans .boundary 0 text _ := scans_iff.mpr rfl
  rw [h] at hscans
  exact hscans.text_of_isSymbol List.mem_cons_self rfl

/-- A text that is spelled as a symbol, and is not the reserved word, reads as one. -/
theorem readsAsSymbol_of_spelled {first other : Char} {more : Text}
    (hfirst : startsSymbol first = true) (hmore : ∀ c ∈ more, continuesSymbol c = true)
    (hmem : other ∈ first :: more) (hother : other.toLower ∉ Lexer.reservedMinus) :
    ReadsAsSymbol (first :: more) := by
  have hscans : Lexer.Scans .boundary 0 (first :: more ++ []) _ :=
    .run (.symbol hfirst) hmore (Lexer.stops_nil _) .done
  rw [List.append_nil, Lexer.runToken_of_mem hmem hother] at hscans
  have hbody : (lex .strict (first :: more)).body = _ := (scans_iff.mp hscans).symm
  have hfaults : (lex .strict (first :: more)).faults = [] :=
    Lexer.faults_of_no_error _ hscans (List.forall_mem_singleton.mpr nofun)
  exact congrArg₂ (Lexed.mk · (first :: more).length ·) hbody hfaults

/-- **Behind a stem** a symbol goes on as long as it is carried on. -/
theorem readsAsSymbol_append_iff {stem rest : Text} {other : Char} (hstem : ReadsAsSymbol stem)
    (hmem : other ∈ stem) (hother : other.toLower ∉ Lexer.reservedMinus) :
    ReadsAsSymbol (stem ++ rest) ↔ ∀ c ∈ rest, continuesSymbol c = true := by
  obtain ⟨first, more, rfl, hfirst, hmore⟩ := hstem.spelled
  constructor
  · intro h
    obtain ⟨c, all, htext, -, hall⟩ := h.spelled
    obtain ⟨rfl, rfl⟩ := List.cons.inj htext
    exact (List.forall_mem_append.mp hall).2
  · intro h
    exact readsAsSymbol_of_spelled hfirst (List.forall_mem_append.mpr ⟨hmore, h⟩)
      (List.mem_append_left rest hmem) hother

/-! ### What a reference is spelled with -/

/-- One character begins symbols and carries none on. -/
theorem continuesSymbol_iff_of_startsSymbol {c : Char} (h : startsSymbol c = true) :
    continuesSymbol c = true ↔ c ≠ '@' := by
  constructor
  · rintro hc rfl
    cases hc
  · intro hne
    simp only [startsSymbol, Bool.or_eq_true, beq_iff_eq, or_iff_left hne] at h
    rcases h with h | rfl
    · simp [continuesSymbol, Char.isAlphanum, h]
    · rfl

namespace Reference

variable {mode : Mode} {source : Text} {reference : Reference} {span : Span}

/-- The id is spelled as symbols are, and the name with what carries a symbol on. -/
structure Written (reference : Reference) : Prop where
  kpi : ∃ c more, reference.kpi = c :: more ∧ startsSymbol c = true ∧
    ∀ d ∈ more, continuesSymbol d = true
  wanted : ∀ name, reference.wanted = some name → ∀ c ∈ name, continuesSymbol c = true

/-- **A reference of a formula** is written so. -/
theorem written_of_mem_sites (h : (reference, span) ∈ sites (lex mode source).body) :
    Written reference := by
  have hoccurs := mem_sites_iff.mp h
  constructor
  · obtain ⟨token, htoken, hsymbol, htext⟩ := hoccurs.exists_symbol_of_kpi
    rw [← htext]
    exact (scans_iff.mpr rfl : Lexer.Scans .boundary 0 source _).text_of_isSymbol
      (mem_body_strict htoken) hsymbol
  · intro name hwanted
    obtain ⟨token, htoken, hvariable, rfl⟩ := hoccurs.exists_variable_of_wanted hwanted
    have hkind := Token.kind_of_isVariable hvariable
    obtain ⟨c, more, htext, hbegins, hmore⟩ := (stands_of_mem_body htoken (.inr hkind)).run
    rw [hkind] at hbegins hmore
    cases hbegins
    rw [htext]
    refine List.forall_mem_cons.mpr ⟨rfl, fun d hd => ?_⟩
    have hd : Lexer.continuesVariable d = true := hmore d hd
    rw [continuesSymbol]
    exact Bool.or_eq_true_iff.mpr (.inl hd)

/-! ### Reading the stand-ins -/

/-- **The marker** of a variable reads as one symbol. -/
theorem readsAsSymbol_missing {name : Text} (h : ∀ c ∈ name, continuesSymbol c = true) :
    ReadsAsSymbol (Assignment.missing name) := by
  have hstem : ReadsAsSymbol "ERROR_Variable_NotFound_".toList := by decide
  have hmem : '_' ∈ "ERROR_Variable_NotFound_".toList := by decide
  exact (readsAsSymbol_append_iff hstem hmem (by decide)).mpr h

/-- **The placeholder** of a reference reads as one symbol unless the id begins with the character
that carries no symbol on. -/
theorem readsAsSymbol_placeholder_iff (h : Written reference) :
    ReadsAsSymbol reference.placeholder ↔ reference.kpi.head? ≠ some '@' := by
  obtain ⟨⟨first, more, hkpi, hfirst, hmore⟩, hwanted⟩ := h
  have hstem : ReadsAsSymbol "Formula_for_KPI_".toList := by decide
  have hmem : '_' ∈ "Formula_for_KPI_".toList := by decide
  have hname : ∀ c ∈ reference.wanted.getD [], continuesSymbol c = true := by
    cases hnamed : reference.wanted with
    | none => exact List.forall_mem_nil _
    | some name => exact hwanted name hnamed
  unfold placeholder
  generalize "Formula_for_KPI_".toList = stem at hstem hmem ⊢
  rw [hkpi, List.append_assoc, List.append_assoc, readsAsSymbol_append_iff hstem hmem (by decide),
    List.head?_cons, ne_eq, Option.some.injEq, ← ne_eq,
    ← continuesSymbol_iff_of_startsSymbol hfirst]
  constructor
  · intro hall
    exact hall first List.mem_cons_self
  · intro hc
    have hsign : continuesSymbol '_' = true := rfl
    exact List.forall_mem_append.mpr ⟨List.forall_mem_cons.mpr ⟨hc, hmore⟩,
      List.forall_mem_cons.mpr ⟨hsign, hname⟩⟩

end Reference

end CounterFormula
