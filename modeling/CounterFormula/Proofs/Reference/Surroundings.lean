import CounterFormula.Proofs.Reference.Substitution
import CounterFormula.Proofs.Token.Surroundings

/-!
# Reference — Surroundings

What stands around the well-formed references of a formula, and around what is put in for them.
Before a reference there is a boundary, and behind it the formula breaks off.  References do not
touch each other, so both stay as they are when other references are replaced.

* `surroundings_of_mem_sites`: the text around a reference.
* `patch_of_sites`: the text around what a reference is replaced by.
-/

namespace CounterFormula.Reference

variable {mode : Mode} {source : Text} {tokens path rest : List Token} {reference : Reference}
  {span : Span} {last : Token}

theorem Spelled.closed (h : Spelled path reference last rest) :
    ∃ closing more, rest = closing :: more ∧ closing.isOperator ')' = true ∧
      (last.kind = .symbol ∨ last.kind = .var) := by
  cases h with
  | formula _ _ hkpi hclosing => exact ⟨_, _, rfl, hclosing, .inl (Token.kind_of_isSymbol hkpi)⟩
  | value _ _ _ _ hname hclosing =>
      exact ⟨_, _, rfl, hclosing, .inr (Token.kind_of_isVariable hname)⟩

/-- A well-formed reference extends from its head to the token before a closing parenthesis. -/
theorem exists_tokens_of_mem_sites (h : (reference, span) ∈ sites tokens) :
    ∃ name ∈ tokens, name.isNamed head = true ∧ ∃ before last closing more,
      tokens = before ++ last :: closing :: more ∧ (last.kind = .symbol ∨ last.kind = .var) ∧
        closing.isOperator ')' = true ∧ span = ⟨name.first, last.last⟩ := by
  cases mem_sites_iff.mp h with
  | @wellFormed name slash last path rest _ hhead hpath =>
      obtain ⟨front, rfl⟩ := hhead.suffix
      obtain ⟨before, rfl⟩ := hpath.exists_eq_append
      obtain ⟨closing, more, rfl, hclosing, hkind⟩ := hpath.closed
      exact ⟨name, hhead.mem, hhead.isNamed, front ++ before, last, closing, more,
        (List.append_assoc _ _ _).symm, hkind, hclosing, rfl⟩

/-- **Around a reference.**  Before it there is a boundary, and behind it the formula breaks off:
with a sigil only in relaxed mode, and directly. -/
theorem surroundings_of_mem_sites (h : (reference, span) ∈ sites (lex mode source).body) :
    Lexer.EndsOutside Lexer.inWord (source.take span.first) ∧ source[span.first]? = some 'F' ∧
      ∃ blanks c rest, Lexer.Breaks (source.drop (span.last + 1)) blanks c rest ∧
        (c = '$' → blanks = [] ∧ mode = .relaxed) := by
  obtain ⟨name, hname, hhead, before, last, closing, more, htokens, hkind, hclosing, rfl⟩ :=
    exists_tokens_of_mem_sites h
  have hsymbol : name.isSymbol = true := (Bool.and_eq_true_iff.mp hhead).1
  have hstands := stands_of_mem_body hname (.inl (Token.kind_of_isSymbol hsymbol))
  refine ⟨hstands.before, ?_, exists_breaks_of_body htokens hkind hclosing⟩
  have hdrop := hstands.drop_eq
  rw [Token.text_of_isNamed hhead] at hdrop
  rw [← List.head?_drop, hdrop]
  rfl

/-! ### References that are replaced -/

/-- The well-formed references of a formula lie in it one after the other. -/
theorem laid_span_sites (mode : Mode) (source : Text) :
    Span.Laid 0 source.length ((sites (lex mode source).body).map Prod.snd) :=
  (laid_span_occurrences (laid_span_body mode source)).sublist (sites_sublist _)

/-- A reference begins behind the place where the formula breaks off behind an earlier one. -/
theorem lt_first_of_breaks {offset : Nat} {blanks behind : Text} {c : Char}
    (h : Lexer.Breaks (source.drop offset) blanks c behind) (hoffset : offset ≤ span.first)
    (hsite : (reference, span) ∈ sites (lex mode source).body) :
    offset + blanks.length < span.first := by
  obtain ⟨-, hhead, -⟩ := surroundings_of_mem_sites hsite
  refine h.length_le hoffset hhead (by decide) ?_
  rintro rfl
  exact absurd h.stops (by decide)

/-- The patch that puts in, for a reference, what `texts` says. -/
def put (texts : Reference → Text) (site : Reference × Span) : Span × Text :=
  (site.2, texts site.1)

variable {before after : List (Reference × Span)}

/-- The references before one end before it begins, and those behind it begin behind its end. -/
theorem order_of_sites
    (hsites : sites (lex mode source).body = before ++ (reference, span) :: after) :
    (∀ site ∈ before, site.2.first ≤ span.first ∧ site.2.last < span.first) ∧
      ∀ site ∈ after, span.last + 1 ≤ site.2.first := by
  have hlaid := laid_span_sites mode source
  rw [hsites, List.map_append, List.map_cons] at hlaid
  obtain ⟨-, hafter, hbefore⟩ := List.pairwise_append.mp hlaid.apart
  refine ⟨fun site hsite => ?_, fun site hsite => ?_⟩
  · have hlast : site.2.last < span.first :=
      hbefore _ (List.mem_map_of_mem hsite) _ List.mem_cons_self
    have hfirst : site.2.first ≤ site.2.last :=
      hlaid.first_le_last _ (List.mem_append_left _ (List.mem_map_of_mem hsite))
    exact ⟨Nat.le_trans hfirst (Nat.le_of_lt hlast), hlast⟩
  · exact (List.pairwise_cons.mp hafter).1 _ (List.mem_map_of_mem hsite)

theorem endsOutside_front (texts : Reference → Text)
    (hsites : sites (lex mode source).body = before ++ (reference, span) :: after) :
    Lexer.EndsOutside Lexer.inWord
      (Text.patch (source.take span.first) (before.map (put texts))) := by
  have hmem : ∀ site ∈ before ++ (reference, span) :: after,
      site ∈ sites (lex mode source).body := fun site h => hsites ▸ h
  have hsite := hmem _ (List.mem_append_right before List.mem_cons_self)
  obtain ⟨hboundary, hhead, -⟩ := surroundings_of_mem_sites hsite
  cases before with
  | nil => exact hboundary
  | cons first more =>
      obtain ⟨hbefore, -⟩ := order_of_sites hsites
      have hlength : (source.take span.first).length = span.first := by
        obtain ⟨hlt, -⟩ := List.getElem?_eq_some_iff.mp hhead
        rw [List.length_take, Nat.min_eq_left (Nat.le_of_lt hlt)]
      have hpos := (hbefore first List.mem_cons_self).2
      -- no earlier reference reaches up to this one
      have hgap : ∀ patch ∈ (first :: more).map (put texts),
          patch.1.last + 1 < (source.take span.first).length := by
        intro patch hpatch
        obtain ⟨site, hearlier, rfl⟩ := List.mem_map.mp hpatch
        obtain ⟨-, -, blanks, c, behind, hbreaks, -⟩ :=
          surroundings_of_mem_sites (hmem _ (List.mem_append_left _ hearlier))
        have hgap := lt_first_of_breaks hbreaks (hbefore site hearlier).2 hsite
        rw [hlength]
        show site.2.last + 1 < span.first
        omega
      intro d hd
      rw [Text.patch, Text.getLast?_patchFrom (by omega) hgap] at hd
      exact hboundary d hd

theorem breaks_back {blanks behind : Text} {c : Char} (texts : Reference → Text)
    (hsites : sites (lex mode source).body = before ++ (reference, span) :: after)
    (hbreaks : Lexer.Breaks (source.drop (span.last + 1)) blanks c behind) :
    ∃ rest, Lexer.Breaks
      (Text.patchFrom source (span.last + 1) (after.map (put texts))) blanks c rest := by
  have hdrop : source.drop (span.last + 1) = (blanks ++ [c]) ++ behind := by
    rw [hbreaks.eq_append, List.append_assoc, List.singleton_append]
  have hpatches : ∀ patch ∈ after.map (put texts),
      span.last + 1 + (blanks ++ [c]).length ≤ patch.1.first := by
    intro patch hpatch
    rw [List.length_append, List.length_singleton]
    obtain ⟨site, hlater, rfl⟩ := List.mem_map.mp hpatch
    have hsite : site ∈ sites (lex mode source).body :=
      hsites ▸ List.mem_append_right before (List.mem_cons_of_mem _ hlater)
    exact lt_first_of_breaks hbreaks ((order_of_sites hsites).2 site hlater) hsite
  have hback := Text.patchFrom_of_drop_eq hdrop hpatches
  rw [List.append_assoc, List.singleton_append] at hback
  exact ⟨_, hback, hbreaks.isBlank, hbreaks.not_isBlank, hbreaks.stops⟩

/-- **Around what is put in for a reference.**  What stands before it ends with a boundary, and what
stands behind it breaks off as the formula does, whatever is put in for other references. -/
theorem patch_of_sites (texts : Reference → Text)
    (hsites : sites (lex mode source).body = before ++ (reference, span) :: after) :
    let front := Text.patch (source.take span.first) (before.map (put texts))
    let back := Text.patchFrom source (span.last + 1) (after.map (put texts))
    Text.patch source ((sites (lex mode source).body).map (put texts)) =
        front ++ texts reference ++ back ∧
      Lexer.EndsOutside Lexer.inWord front ∧
      ∃ blanks c rest, Lexer.Breaks back blanks c rest ∧
        (c = '$' → mode = .relaxed ∧ (source.drop (span.last + 1)).head? = some '$') := by
  intro front back
  have hsite : (reference, span) ∈ sites (lex mode source).body :=
    hsites ▸ List.mem_append_right before List.mem_cons_self
  obtain ⟨-, -, blanks, c, behind, hbreaks, hsigil⟩ := surroundings_of_mem_sites hsite
  obtain ⟨rest, hback⟩ := breaks_back texts hsites hbreaks
  refine ⟨?_, endsOutside_front texts hsites, blanks, c, rest, hback, fun heq => ?_⟩
  · rw [hsites, List.map_append, List.map_cons]
    refine Text.patchFrom_append_cons (fun patch hpatch => ?_) (texts reference)
      (after.map (put texts))
    obtain ⟨site, hearlier, rfl⟩ := List.mem_map.mp hpatch
    exact ((order_of_sites hsites).1 site hearlier).1
  · obtain ⟨rfl, hmode⟩ := hsigil heq
    rw [hbreaks.eq_append, heq]
    exact ⟨hmode, rfl⟩

end CounterFormula.Reference
