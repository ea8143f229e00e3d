import CounterFormula.Proofs.Token.Class
import CounterFormula.Proofs.Token.Order
import CounterFormula.Proofs.Token.Scan

/-!
# Token — Resume

A reading of a text taken apart.  Behind each of its tokens the rest of the text reads as the rest
of the tokens, and where there is no error every run is followed by a boundary, so that it does not
matter what stands before.

* `Scans.behind`: the reading behind a token.
* `Scans.of_no_error`: a reading without an error is one behind any place.
* `no_error_of_faults`, `Lexer.faults_of_no_error`: a text is without a fault just when it is read
  without an error.
-/

namespace CounterFormula

namespace Lexer

variable {place : Place} {source text : Text} {start : Nat} {token last : Token}
  {tokens before after : List Token}

/-- **The first token**, and what is read behind it. -/
theorem Scans.uncons (h : Scans place start text (token :: tokens))
    (htext : source.drop start = text) :
    start ≤ token.first ∧ token.first ≤ token.last ∧
      ∃ place', Scans place' (token.last + 1) (source.drop (token.last + 1)) tokens := by
  generalize hall : token :: tokens = all at h
  induction h with
  | done => cases hall
  | @blank _ start c rest _ _ _ ih =>
      have hrest : source.drop start = [c] ++ rest := htext
      obtain ⟨hfirst, hlast⟩ := ih (Text.drop_of_drop_eq hrest) hall
      exact ⟨Nat.le_of_succ_le hfirst, hlast⟩
  | @sign _ start c rest _ _ h _ =>
      obtain ⟨rfl, rfl⟩ := List.cons.inj hall
      have hrest : source.drop start = [c] ++ rest := htext
      refine ⟨Nat.le_refl _, Nat.le_refl _, .boundary, ?_⟩
      rw [← Text.drop_of_drop_eq hrest] at h
      exact h
  | @run start c kind more rest _ _ _ _ h _ =>
      obtain ⟨rfl, rfl⟩ := List.cons.inj hall
      rw [first_runToken, last_runToken]
      refine ⟨Nat.le_refl _, by simp, .run, ?_⟩
      rw [← Text.drop_of_drop_eq htext] at h
      exact h
  | @error _ start c more rest _ _ _ _ h _ =>
      obtain ⟨rfl, rfl⟩ := List.cons.inj hall
      refine ⟨Nat.le_refl _, by simp [Token.ofRun], .boundary, ?_⟩
      rw [← Text.drop_of_drop_eq htext] at h
      exact h

theorem Scans.start_le (h : Scans place start text tokens) (htext : source.drop start = text) :
    ∀ token ∈ tokens, start ≤ token.first := by
  induction tokens generalizing place start text with
  | nil => exact nofun
  | cons token tokens ih =>
      obtain ⟨hfirst, hlast, place', hrest⟩ := h.uncons htext
      refine List.forall_mem_cons.mpr ⟨hfirst, fun found hfound => ?_⟩
      have := ih hrest rfl found hfound
      omega

/-- **Behind a token** the rest of the text reads as the rest of the tokens. -/
theorem Scans.behind (h : Scans place start text (before ++ last :: after))
    (htext : source.drop start = text) :
    start ≤ last.last ∧
      ∃ place', Scans place' (last.last + 1) (source.drop (last.last + 1)) after := by
  induction before generalizing place start text with
  | nil =>
      obtain ⟨hfirst, hlast, hbehind⟩ := h.uncons htext
      exact ⟨Nat.le_trans hfirst hlast, hbehind⟩
  | cons token before ih =>
      obtain ⟨hfirst, hlast, place', hrest⟩ := h.uncons htext
      obtain ⟨hstart, hbehind⟩ := ih hrest rfl
      exact ⟨by omega, hbehind⟩

/-- A reading behind a run, without an error, begins with a boundary, if with anything. -/
theorem Scans.of_no_error (h : Scans .run start text tokens)
    (hclean : ∀ token ∈ tokens, token.kind ≠ .error) :
    Stops inWord text ∧ ∀ place, Scans place start text tokens := by
  cases h with
  | done => exact ⟨stops_nil inWord, fun _ => .done⟩
  | blank hc h => exact ⟨stops_cons.mpr (inWord_of_isBlank hc), fun _ => .blank hc h⟩
  | sign hc h => exact ⟨stops_cons.mpr (inWord_of_isOperator hc), fun _ => .sign hc h⟩
  | error => exact absurd rfl (hclean _ List.mem_cons_self)

/-- So it does not matter what stands before it. -/
theorem Scans.at_boundary (h : Scans place start text tokens)
    (hclean : ∀ token ∈ tokens, token.kind ≠ .error) : Scans .boundary start text tokens := by
  cases place with
  | boundary => exact h
  | run => exact (h.of_no_error hclean).2 .boundary

/-- A token that is no error is read as at a boundary. -/
theorem Scans.boundary_of_ne_error (h : Scans place start text (token :: tokens))
    (hkind : token.kind ≠ .error) : Scans .boundary start text (token :: tokens) := by
  cases h with
  | blank hc h => exact .blank hc h
  | sign hc h => exact .sign hc h
  | run hc hmore hlongest h => exact .run hc hmore hlongest h
  | error => exact absurd rfl hkind

/-! ### Classes of tokens -/

theorem kind_runToken (kind : TokenClass) (start : Nat) (run : Text) :
    (runToken kind start run).kind = .operator ∨
      runToken kind start run = .ofRun kind start run := by
  unfold runToken
  split
  · exact .inl rfl
  · exact .inr rfl

/-- A run with a character that is not in the reserved word reads as it is. -/
theorem runToken_of_mem {c : Char} {run : Text} (hc : c ∈ run) (hother : c.toLower ∉ reservedMinus)
    (kind : TokenClass) (start : Nat) : runToken kind start run = .ofRun kind start run := by
  refine if_neg fun hminus => hother ?_
  rw [← eq_of_beq (Bool.and_eq_true_iff.mp hminus).2]
  exact List.mem_map_of_mem hc

/-- A symbol is spelled as symbols are. -/
theorem Scans.text_of_isSymbol (h : Scans place start text tokens) (hmem : token ∈ tokens)
    (hsymbol : token.isSymbol = true) :
    ∃ c more, token.text = c :: more ∧ startsSymbol c = true ∧
      ∀ d ∈ more, continuesSymbol d = true := by
  have hkind := Token.kind_of_isSymbol hsymbol
  induction h with
  | done => cases hmem
  | blank _ _ ih => exact ih hmem
  | sign _ _ ih =>
      rcases List.mem_cons.mp hmem with rfl | hmem
      · cases hkind
      · exact ih hmem
  | @run start c kind more _ _ hc hmore _ _ ih =>
      rcases List.mem_cons.mp hmem with rfl | hmem
      · rcases kind_runToken kind start (c :: more) with hrun | hrun
        · rw [hrun] at hkind
          cases hkind
        · rw [hrun] at hkind ⊢
          obtain rfl : kind = .symbol := hkind
          cases hc with
          | symbol hc => exact ⟨c, more, rfl, hc, hmore⟩
      · exact ih hmem
  | error _ _ _ _ ih =>
      rcases List.mem_cons.mp hmem with rfl | hmem
      · cases hkind
      · exact ih hmem

/-- Only operators are spelled with characters that are in no word. -/
theorem Scans.inWord_text (h : Scans place start text tokens) (hmem : token ∈ tokens)
    (hkind : token.kind ≠ .operator) : ∀ c ∈ token.text, inWord c = true := by
  induction h with
  | done => cases hmem
  | blank _ _ ih => exact ih hmem
  | sign _ _ ih =>
      rcases List.mem_cons.mp hmem with rfl | hmem
      · exact absurd rfl hkind
      · exact ih hmem
  | @run start c kind more _ _ hc hmore _ _ ih =>
      rcases List.mem_cons.mp hmem with rfl | hmem
      · rcases kind_runToken kind start (c :: more) with hrun | hrun
        · exact absurd hrun hkind
        · rw [hrun]
          exact List.forall_mem_cons.mpr
            ⟨inWord_of_begins hc, fun d hd => inWord_of_carriesOn (hmore d hd)⟩
      · exact ih hmem
  | error _ hbad _ _ ih =>
      rcases List.mem_cons.mp hmem with rfl | hmem
      · exact hbad
      · exact ih hmem

/-- An operator that is spelled in one way only stands in the text. -/
theorem Scans.mem_of_isOperator (h : Scans place start text tokens) (hmem : token ∈ tokens)
    {sign : Char} (hsign : token.isOperator sign = true) (hminus : sign ≠ '-')
    (hsum : sign ≠ summationSign) : sign ∈ text := by
  obtain ⟨hkind, htext⟩ := Token.kind_of_isOperator hsign
  induction h with
  | done => cases hmem
  | blank _ _ ih => exact List.mem_cons_of_mem _ (ih hmem)
  | @sign _ start c _ _ _ _ ih =>
      rcases List.mem_cons.mp hmem with rfl | hmem
      · rw [operatorToken] at htext
        split at htext
        · exact absurd (List.cons.inj htext).1.symm hsum
        · exact List.mem_cons.mpr (.inl (List.cons.inj htext).1.symm)
      · exact List.mem_cons_of_mem _ (ih hmem)
  | @run start c kind more _ _ hc _ _ _ ih =>
      rcases List.mem_cons.mp hmem with rfl | hmem
      · rw [runToken] at htext hkind
        split at htext
        · exact absurd (List.cons.inj htext).1.symm hminus
        · rename_i hrun
          rw [if_neg hrun] at hkind
          exact absurd hkind hc.ne_operator
      · exact List.mem_append_right _ (ih hmem)
  | error _ _ _ _ ih =>
      rcases List.mem_cons.mp hmem with rfl | hmem
      · cases hkind
      · exact List.mem_append_right _ (ih hmem)

theorem no_error_of_readingFrom (h : Scans place start text tokens)
    (hfaults : (readingFrom .strict source start text place).faults = []) :
    ∀ token ∈ tokens, token.kind ≠ .error := by
  induction h with
  | done => exact nofun
  | @blank place start _ rest _ hc _ ih =>
      rw [readingFrom_blank .strict source place start hc] at hfaults
      exact ih hfaults
  | @sign place start c rest _ hc _ ih =>
      rw [readingFrom_sign .strict source place start hc] at hfaults
      exact List.forall_mem_cons.mpr ⟨nofun, ih hfaults⟩
  | @run start c kind more rest _ hc hmore hlongest _ ih =>
      rw [readingFrom_run .strict source start hc hmore hlongest] at hfaults
      refine List.forall_mem_cons.mpr ⟨?_, ih hfaults⟩
      rcases kind_runToken kind start (c :: more) with hrun | hrun
      · rw [hrun]
        exact nofun
      · rw [hrun]
        cases hc <;> exact nofun
  | @error place start c more rest _ hc hbad hlongest _ _ =>
      rw [readingFrom_error .strict source start hc hbad hlongest] at hfaults
      cases hfaults

theorem faults_of_no_error (source : Text) (h : Scans place start text tokens)
    (hclean : ∀ token ∈ tokens, token.kind ≠ .error) :
    (readingFrom .strict source start text place).faults = [] := by
  induction h with
  | done => rw [readingFrom_nil]; rfl
  | @blank place start _ rest _ hc _ ih =>
      rw [readingFrom_blank .strict source place start hc]
      exact ih hclean
  | @sign place start c rest _ hc _ ih =>
      rw [readingFrom_sign .strict source place start hc]
      exact ih (List.forall_mem_cons.mp hclean).2
  | @run start c kind more rest _ hc hmore hlongest _ ih =>
      rw [readingFrom_run .strict source start hc hmore hlongest]
      exact ih (List.forall_mem_cons.mp hclean).2
  | error => exact absurd rfl (hclean _ List.mem_cons_self)

end Lexer

/-- **A text without a fault** is read without an error. -/
theorem no_error_of_faults {source : Text} (h : (lex .strict source).faults = []) :
    ∀ token ∈ (lex .strict source).body, token.kind ≠ .error :=
  Lexer.no_error_of_readingFrom (scans_iff.mpr rfl) h

end CounterFormula
