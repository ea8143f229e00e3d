import CounterFormula.Proofs.Text.Patch
import CounterFormula.Token.Lexer

/-!
# Token — Order

Where the tokens of a text lie in it.

* `laid_span_body`: the tokens of a text, in either mode, lie in it one after the other, and
  none is empty.
-/

namespace CounterFormula

/-- Where a token lies in the text it was cut from. -/
def Token.span (token : Token) : Span := ⟨token.first, token.last⟩

namespace Lexer

theorem laid_span_ofRun {kind : TokenClass} {start : Nat} {run : Text} (h : run ≠ []) :
    Span.Laid start (start + run.length) [(Token.ofRun kind start run).span] := by
  have hpos : 0 < run.length := List.length_pos_iff.mpr h
  exact .singleton (show start ≤ start + run.length - 1 by omega) (Nat.le_refl start)
    (show start + run.length - 1 < start + run.length by omega)

/-- A reserved spelling keeps its place. -/
theorem span_runToken (kind : TokenClass) (start : Nat) (run : Text) :
    (runToken kind start run).span = (Token.ofRun kind start run).span := by
  unfold runToken
  split <;> rfl

theorem first_runToken (kind : TokenClass) (start : Nat) (run : Text) :
    (runToken kind start run).first = start :=
  congrArg Span.first (span_runToken kind start run)

theorem last_runToken (kind : TokenClass) (start : Nat) (run : Text) :
    (runToken kind start run).last = start + run.length - 1 :=
  congrArg Span.last (span_runToken kind start run)

theorem laid_span_readRest (mode : Mode) (source : Text) (start : Nat) (rest : Text) :
    Span.Laid start (start + rest.length)
      ((readRest mode source start rest).tokens.map Token.span) := by
  cases mode with
  | relaxed => exact .nil
  | strict =>
      cases rest with
      | nil => exact .nil
      | cons c more => exact laid_span_ofRun (List.cons_ne_nil c more)

theorem laid_span_readWord (mode : Mode) (source : Text) (start : Nat) (word : Text) :
    Span.Laid start (start + word.length)
      ((readWord mode source start word).tokens.map Token.span) := by
  cases word with
  | nil => exact .nil
  | cons c more =>
      rw [readWord]
      split
      · exact laid_span_readRest mode source start (c :: more)
      · rename_i kind continues _
        have hlength : (more.takeWhile continues).length + (more.dropWhile continues).length =
            more.length := by
          rw [← List.length_append, List.takeWhile_append_dropWhile]
        have hrun : Span.Laid start (start + (c :: more.takeWhile continues).length)
            [(runToken kind start (c :: more.takeWhile continues)).span] := by
          rw [span_runToken]
          exact laid_span_ofRun (List.cons_ne_nil c _)
        have hrest := laid_span_readRest mode source
          (start + (c :: more.takeWhile continues).length) (more.dropWhile continues)
        have hstop : start + (c :: more).length =
            start + (c :: more.takeWhile continues).length + (more.dropWhile continues).length := by
          simp only [List.length_cons]
          omega
        rw [Reading.append, List.map_append, hstop]
        exact hrun.append hrest (by omega) (by omega)

theorem laid_span_readPiece (mode : Mode) (source : Text) (start : Nat) (piece : Piece) :
    Span.Laid start (start + piece.text.length)
      ((readPiece mode source start piece).tokens.map Token.span) := by
  cases piece with
  | gap c => exact .nil
  | sign c =>
      have h : Span.Laid start (start + 1) [(operatorToken start c).span] :=
        laid_span_ofRun (List.cons_ne_nil _ [])
      exact h
  | word text => exact laid_span_readWord mode source start text

theorem laid_span_readPieces (mode : Mode) (source : Text) (start : Nat) (pieces : List Piece) :
    Span.Laid start (start + (pieces.flatMap Piece.text).length)
      ((readPieces mode source start pieces).tokens.map Token.span) := by
  induction pieces generalizing start with
  | nil => exact .nil
  | cons piece more ih =>
      have hrest := ih (start + piece.text.length)
      rw [readPieces, Reading.append, List.map_append, List.flatMap_cons, List.length_append]
      rw [Nat.add_assoc] at hrest
      exact (laid_span_readPiece mode source start piece).append hrest (by omega) (by omega)

end Lexer

/-- **The tokens of a text** lie in it one after the other, and none is empty. -/
theorem laid_span_body (mode : Mode) (source : Text) :
    Span.Laid 0 source.length ((lex mode source).body.map Token.span) := by
  have h := Lexer.laid_span_readPieces mode source 0 (Lexer.pieces source)
  rwa [Lexer.flatMap_text_pieces, Nat.zero_add] at h

/-- A token begins in the text, and ends there. -/
theorem bounds_of_mem_body {mode : Mode} {source : Text} {token : Token}
    (h : token ∈ (lex mode source).body) :
    token.first ≤ token.last ∧ token.last < source.length := by
  have hlaid := laid_span_body mode source
  have hspan : token.span ∈ (lex mode source).body.map Token.span := List.mem_map_of_mem h
  exact ⟨hlaid.first_le_last _ hspan, hlaid.lt_stop _ hspan⟩

end CounterFormula
