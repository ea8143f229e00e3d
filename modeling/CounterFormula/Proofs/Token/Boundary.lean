import CounterFormula.Proofs.Token.Errors
import CounterFormula.Proofs.Token.Written

/-!
# Token — Boundary

What a boundary does.  A blank or an operator ends the word before it, and what stands behind it is
read as if nothing stood before.  So a text with a boundary in it is read part by part, and tokens
that are *printed*, with a blank between neighbours, are read as they are spelled.

* `offsets_faults_append_cons`: the faults of a text with a boundary in it are those of its parts.
* `lex_append_cons`: so are the tokens, but for the operator between them.
* `Lexer.Written.spellings_text`: the text of a token, read on its own, is that token.
* `lex_printed`: printing and reading again leaves the classes and the texts of tokens as they are.
-/

namespace CounterFormula

open Lexer (EndsOutside Parted Written)

variable {mode : Mode} {source front back run : Text} {c : Char} {token : Token}
  {tokens : List Token}

/-! ### A text with a boundary in it -/

/-- The tokens of a boundary `c` at `offset`: a blank has none, and an operator is one, the
summation glyph as the plain sign. -/
def boundaryTokens (offset : Nat) (c : Char) : List Token :=
  if Lexer.isOperator c then [⟨.operator, [if c = '∑' then '~' else c], offset, offset⟩] else []

theorem boundaryTokens_of_isBlank (hc : Text.isBlank c = true) (offset : Nat) :
    boundaryTokens offset c = [] := by
  refine if_neg fun hsign => ?_
  rw [Lexer.isBlank_of_isOperator hsign] at hc
  cases hc

theorem boundaryTokens_of_isOperator (hc : Lexer.isOperator c = true) (offset : Nat) :
    boundaryTokens offset c = [Lexer.operatorToken offset c] := by
  rw [boundaryTokens, if_pos hc]
  simp [Lexer.operatorToken, Token.ofRun, Lexer.summationGlyph, Lexer.summationSign]

theorem shift_boundaryTokens (offset : Nat) (c : Char) :
    (boundaryTokens 0 c).map (Token.shift offset) = boundaryTokens offset c := by
  rw [boundaryTokens, boundaryTokens]
  split <;> rfl

theorem errors_boundaryTokens (offset : Nat) (c : Char) :
    errors (boundaryTokens offset c) = [] := by
  rw [boundaryTokens]
  split <;> rfl

theorem body_singleton (mode : Mode) (hc : Lexer.inWord c = false) :
    (lex mode [c]).body = boundaryTokens 0 c := by
  rcases Lexer.not_inWord_iff.mp hc with hblank | hsign
  · rw [boundaryTokens_of_isBlank hblank, lex, Lexer.pieces_blank hblank]
    rfl
  · rw [boundaryTokens_of_isOperator hsign, lex, Lexer.pieces_sign hsign]
    rfl

theorem body_append_cons (mode : Mode) (hc : Lexer.inWord c = false) (front back : Text) :
    (lex mode (front ++ c :: back)).body =
      (lex mode front).body ++ boundaryTokens front.length c ++
        (lex mode back).body.map (Token.shift (front.length + 1)) := by
  have hfront : Parted front ([c] ++ back) := .inr (Lexer.stops_cons.mpr hc)
  have hback : Parted [c] back :=
    .inl (Lexer.endsOutside_concat.mpr hc : EndsOutside Lexer.inWord ([] ++ [c]))
  calc (lex mode (front ++ ([c] ++ back))).body
      = (lex mode front).body ++ (lex mode ([c] ++ back)).body.map (Token.shift front.length) :=
        body_append mode hfront
    _ = (lex mode front).body ++ (boundaryTokens 0 c ++
          (lex mode back).body.map (Token.shift 1)).map (Token.shift front.length) := by
        rw [body_append mode hback, body_singleton mode hc, List.length_singleton]
    _ = _ := by
        rw [List.map_append, shift_boundaryTokens, Token.shift_shift, List.append_assoc]

theorem spellings_append_cons (mode : Mode) (hc : Lexer.inWord c = false) (front back : Text) :
    spellings mode (front ++ c :: back) =
      spellings mode front ++ (boundaryTokens 0 c).map Token.spelling ++ spellings mode back := by
  rw [spellings, body_append_cons mode hc, List.map_append, List.map_append, map_spelling_shift,
    ← shift_boundaryTokens front.length, map_spelling_shift]
  rfl

/-! ### Its faults -/

theorem errors_map_shift (offset : Nat) (tokens : List Token) :
    errors (tokens.map (Token.shift offset)) = (errors tokens).map (Token.shift offset) :=
  List.filter_map

/-- The faults of a text are found where its error tokens begin. -/
theorem offsets_faults (source : Text) :
    (lex .strict source).faults.map LexicalFault.offset =
      (errors (lex .strict source).body).map Token.first := by
  rw [faults_eq_map_errors, List.map_map]
  rfl

/-- **The faults of a text with a boundary in it** are those of its parts, found where they
stand. -/
theorem offsets_faults_append_cons (mode : Mode) (hc : Lexer.inWord c = false)
    (front back : Text) :
    (lex mode (front ++ c :: back)).faults.map LexicalFault.offset =
      (lex mode front).faults.map LexicalFault.offset ++
        (lex mode back).faults.map fun fault => front.length + 1 + fault.offset := by
  cases mode with
  | relaxed => rw [faults_relaxed, faults_relaxed, faults_relaxed]; rfl
  | strict =>
      have hmoved : ((lex .strict back).faults.map fun fault => front.length + 1 + fault.offset) =
          (errors (lex .strict back).body).map fun token => front.length + 1 + token.first := by
        have h := congrArg (List.map (front.length + 1 + ·)) (offsets_faults back)
        rwa [List.map_map, List.map_map] at h
      rw [offsets_faults, offsets_faults, hmoved, body_append_cons .strict hc, errors_append,
        errors_append, errors_boundaryTokens, List.append_nil, errors_map_shift, List.map_append,
        List.map_map]
      rfl

/-- **Reading at a boundary.**  The tokens of a text with a blank or an operator in it are those of
the text before it, the operator itself, and those of the text behind it, moved to where it stands;
and its faults are as many as those of the two texts. -/
theorem lex_append_cons (mode : Mode) (front back : Text)
    (hc : Text.isBlank c = true ∨ Lexer.isOperator c = true) :
    (lex mode (front ++ c :: back)).body =
        (lex mode front).body ++ boundaryTokens front.length c ++
          (lex mode back).body.map (Token.shift (front.length + 1)) ∧
      (lex mode (front ++ c :: back)).faults.length =
        (lex mode front).faults.length + (lex mode back).faults.length := by
  have hboundary := Lexer.not_inWord_iff.mpr hc
  refine ⟨body_append_cons mode hboundary front back, ?_⟩
  have hoffsets := congrArg List.length (offsets_faults_append_cons mode hboundary front back)
  simpa only [List.length_append, List.length_map] using hoffsets

/-- An error ends at the glyph, and another begins behind it. -/
theorem lex_append_cons_of_glyph :
    Lexer.isOperator '∑' = true ∧
      (lex .strict "to 12ab∑é".toList).body =
        (lex .strict "to 12ab".toList).body ++ [⟨.operator, ['~'], 7, 7⟩] ++
          (lex .strict "é".toList).body.map (Token.shift 8) ∧
      (lex .strict "to 12ab∑é".toList).faults.length =
        (lex .strict "to 12ab".toList).faults.length + (lex .strict "é".toList).faults.length := by
  have hglyph : Lexer.isOperator '∑' = true := by decide
  exact ⟨hglyph, lex_append_cons .strict "to 12ab".toList "é".toList (.inr hglyph)⟩

/-! ### Printed tokens -/

/-- The texts of `tokens`, with a blank between neighbours. -/
def printed (tokens : List Token) : Text :=
  Text.join [' '] (tokens.map Token.text)

@[simp]
theorem printed_singleton (token : Token) : printed [token] = token.text := by
  simp [printed, Text.join]

@[simp]
theorem printed_cons_cons (token next : Token) (more : List Token) :
    printed (token :: next :: more) = token.text ++ ' ' :: printed (next :: more) := by
  simp [printed, Text.join, List.intercalate]

theorem spellings_operator (mode : Mode) (hc : Lexer.isOperator c = true)
    (hglyph : c ≠ Lexer.summationGlyph) : spellings mode [c] = [(.operator, [c])] := by
  have hsign := spellings_sign mode hc []
  rw [hsign, Token.spelling, Lexer.operatorToken, if_neg (by simpa using hglyph)]
  rfl

/-- A run that begins and carries on in one class is one token when it is read on its own. -/
theorem spellings_run (mode : Mode) {kind : TokenClass} {more : Text}
    (hc : Lexer.Begins c kind) (hmore : ∀ d ∈ more, Lexer.carriesOn kind d = true) :
    spellings mode (c :: more) = [(Lexer.runToken kind 0 (c :: more)).spelling] := by
  have hscans : Lexer.Scans .boundary 0 (c :: more ++ []) [Lexer.runToken kind 0 (c :: more)] :=
    .run hc hmore (Lexer.stops_nil _) .done
  rw [List.append_nil] at hscans
  have hstrict : spellings .strict (c :: more) =
      [(Lexer.runToken kind 0 (c :: more)).spelling] := by
    rw [spellings, ← scans_iff.mp hscans]
    rfl
  rw [spellings_of_no_error mode, hstrict]
  intro found hfound
  rw [hstrict, List.mem_singleton] at hfound
  rw [hfound]
  exact Lexer.kind_runToken_ne_error hc 0 _

/-- **A token reads as itself**, also where its text is not what it is written with. -/
theorem Lexer.Written.spellings_text (h : Written token run) (mode : Mode) :
    spellings mode token.text = [token.spelling] := by
  cases h with
  | @sign start c hc =>
      by_cases hglyph : c = Lexer.summationGlyph
      · subst hglyph
        exact spellings_operator mode (c := Lexer.summationSign) (by decide) (by decide)
      · have htext : Lexer.operatorToken start c = .ofRun .operator start [c] := by
          rw [Lexer.operatorToken, if_neg (by simpa using hglyph)]
        rw [htext]
        exact spellings_operator mode hc hglyph
  | @run start c kind more hc hmore =>
      by_cases hminus : (kind == .symbol &&
          Text.lowerAscii (c :: more) == Lexer.reservedMinus) = true
      · rw [Lexer.runToken, if_pos hminus]
        exact spellings_operator mode (c := '-') (by decide) (by decide)
      · have hrun (offset : Nat) :
            Lexer.runToken kind offset (c :: more) = .ofRun kind offset (c :: more) := if_neg hminus
        rw [hrun]
        refine (spellings_run mode hc hmore).trans ?_
        rw [hrun]
        rfl

/-- **Printed tokens** read as they are spelled. -/
theorem spellings_printed (mode : Mode) (h : ∀ token ∈ tokens, ∃ run, Written token run) :
    spellings mode (printed tokens) = tokens.map Token.spelling := by
  induction tokens with
  | nil => rfl
  | cons token more ih =>
      obtain ⟨⟨run, hrun⟩, hmore⟩ := List.forall_mem_cons.mp h
      have htoken := hrun.spellings_text mode
      cases more with
      | nil => simpa using htoken
      | cons next more =>
          have hblank : Lexer.inWord ' ' = false := by decide
          rw [printed_cons_cons, spellings_append_cons mode hblank, htoken, ih hmore]
          rfl

/-- **Printing and reading again.**  Print the tokens of a text, read in either mode, none of them
an error.  What is printed reads, in either mode, as tokens of the same classes and texts, without
a fault. -/
theorem lex_printed (h : ∀ token ∈ (lex mode source).body, token.kind ≠ .error) (again : Mode) :
    (lex again (printed (lex mode source).body)).body.map Token.spelling =
        (lex mode source).body.map Token.spelling ∧
      (lex again (printed (lex mode source).body)).faults = [] := by
  have hwritten : ∀ token ∈ (lex mode source).body, ∃ run, Written token run := by
    intro token htoken
    obtain ⟨run, hrun, -⟩ := exists_written htoken (h token htoken)
    exact ⟨run, hrun⟩
  have hread (mode' : Mode) : (lex mode' (printed (lex mode source).body)).body.map Token.spelling =
      (lex mode source).body.map Token.spelling := spellings_printed mode' hwritten
  refine ⟨hread again, ?_⟩
  cases again with
  | relaxed => exact faults_relaxed _
  | strict =>
      rw [faults_eq_map_errors, List.map_eq_nil_iff, errors, List.filter_eq_nil_iff]
      intro found hfound hkind
      -- an error among the printed tokens would be spelled like one of those that were printed
      have hspelled := List.mem_map_of_mem (f := Token.spelling) hfound
      rw [hread] at hspelled
      obtain ⟨token, htoken, hspelling⟩ := List.mem_map.mp hspelled
      exact h token htoken ((congrArg Prod.fst hspelling).trans (eq_of_beq hkind))

/-- Relaxed mode passes over a part of a word, and the rest is printed with the reserved word and
the glyph replaced. -/
theorem lex_printed_of_skipped :
    let source : Text := "12é tO ∑pmA(0-2)$v_1.5".toList
    (∀ token ∈ (lex .relaxed source).body, token.kind ≠ .error) ∧
      printed (lex .relaxed source).body = "12 - ~ pmA ( 0 - 2 ) $v_1.5".toList ∧
      (lex .strict (printed (lex .relaxed source).body)).body.map Token.spelling =
        (lex .relaxed source).body.map Token.spelling ∧
      (lex .strict (printed (lex .relaxed source).body)).faults = [] := by
  intro source
  have hclean : ∀ token ∈ (lex .relaxed source).body, token.kind ≠ .error := by decide +kernel
  exact ⟨hclean, by decide +kernel, lex_printed hclean .strict⟩

end CounterFormula
