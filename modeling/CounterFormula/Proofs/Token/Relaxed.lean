import CounterFormula.Proofs.Token.Resume

/-!
# Token — Relaxed

What relaxed mode makes of a text.  It reads the runs that strict mode reads, at the same offsets,
and passes in silence over the stretches that strict mode makes an error of.

* `body_relaxed`: the tokens are those of strict mode without the errors.
* `lex_relaxed_of_faults`: a text without a fault reads the same in either mode.
-/

namespace CounterFormula

namespace Lexer

variable {source : Text}

/-- A run is no error. -/
theorem kind_runToken_ne_error {c : Char} {kind : TokenClass} (hc : Begins c kind) (start : Nat)
    (run : Text) : (runToken kind start run).kind ≠ .error := by
  rcases kind_runToken kind start run with hrun | hrun
  · rw [hrun]
    exact nofun
  · rw [hrun]
    cases hc <;> exact nofun

theorem tokens_readRest_relaxed (start : Nat) (rest : Text) :
    (readRest .relaxed source start rest).tokens =
      (readRest .strict source start rest).tokens.filter (·.kind != .error) := by
  cases rest <;> rfl

theorem tokens_readWord_relaxed (start : Nat) (word : Text) :
    (readWord .relaxed source start word).tokens =
      (readWord .strict source start word).tokens.filter (·.kind != .error) := by
  cases word with
  | nil => rfl
  | cons c more =>
      rw [readWord, readWord]
      cases hrun : runOf? c with
      | none => exact tokens_readRest_relaxed start (c :: more)
      | some found =>
          obtain ⟨kind, continues⟩ := found
          have hbegins := (begins_of_runOf? hrun).1
          have hkeep (text : Text) : ((runToken kind start text).kind != .error) = true :=
            bne_iff_ne.mpr (kind_runToken_ne_error hbegins start text)
          simp only [Reading.append, List.singleton_append]
          rw [tokens_readRest_relaxed, List.filter_cons, if_pos (hkeep _)]

theorem tokens_readPieces_relaxed (start : Nat) (pieces : List Piece) :
    (readPieces .relaxed source start pieces).tokens =
      (readPieces .strict source start pieces).tokens.filter (·.kind != .error) := by
  induction pieces generalizing start with
  | nil => rfl
  | cons piece more ih =>
      simp only [readPieces, Reading.append, List.filter_append, ih]
      refine congrArg (· ++ _) ?_
      cases piece with
      | gap c => rfl
      | sign c => rfl
      | word text => exact tokens_readWord_relaxed start text

theorem faults_readPieces_relaxed (start : Nat) (pieces : List Piece) :
    (readPieces .relaxed source start pieces).faults = [] := by
  induction pieces generalizing start with
  | nil => rfl
  | cons piece more ih =>
      simp only [readPieces, Reading.append, ih, List.append_nil]
      cases piece with
      | gap c => rfl
      | sign c => rfl
      | word text =>
          cases text with
          | nil => rfl
          | cons c rest =>
              rw [readPiece, readWord]
              split <;> rfl

end Lexer

/-- **Relaxed mode** leaves the errors out. -/
theorem body_relaxed (source : Text) :
    (lex .relaxed source).body = (lex .strict source).body.filter (·.kind != .error) :=
  Lexer.tokens_readPieces_relaxed 0 (Lexer.pieces source)

theorem faults_relaxed (source : Text) : (lex .relaxed source).faults = [] :=
  Lexer.faults_readPieces_relaxed 0 (Lexer.pieces source)

/-- **A text without a fault** reads the same in either mode. -/
theorem lex_relaxed_of_faults {source : Text} (h : (lex .strict source).faults = []) :
    lex .relaxed source = lex .strict source := by
  have hbody : (lex .relaxed source).body = (lex .strict source).body := by
    rw [body_relaxed]
    exact List.filter_eq_self.mpr fun token htoken =>
      bne_iff_ne.mpr (no_error_of_faults h token htoken)
  have hfaults : (lex .relaxed source).faults = (lex .strict source).faults := by
    rw [faults_relaxed, h]
  have hextent : (lex .relaxed source).extent = (lex .strict source).extent := rfl
  calc lex .relaxed source
      = ⟨(lex .relaxed source).body, (lex .relaxed source).extent,
          (lex .relaxed source).faults⟩ := rfl
    _ = lex .strict source := by rw [hbody, hfaults, hextent]

theorem lex_of_faults {source : Text} (mode : Mode) (h : (lex .strict source).faults = []) :
    lex mode source = lex .strict source := by
  cases mode with
  | strict => rfl
  | relaxed => exact lex_relaxed_of_faults h

end CounterFormula
