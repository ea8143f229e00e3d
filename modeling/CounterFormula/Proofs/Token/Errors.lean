import CounterFormula.Proofs.Token.Machine
import CounterFormula.Proofs.Token.Relaxed
import Mathlib.Data.List.Forall2

/-!
# Token — Errors

The characters of a text that fit no token.  Strict mode makes an error token of each stretch of
them and a fault that *announces* it, by the offset where it begins and the text up to there;
relaxed mode leaves out both.

* `faults_eq_map_errors`: the faults of a text are those of its error tokens, in order.
* `lex_skips_announced`: the two modes differ in the error tokens and in the faults that announce
  them, and in nothing else.
-/

namespace CounterFormula

/-- The error tokens among `tokens`. -/
def errors (tokens : List Token) : List Token :=
  tokens.filter (·.kind == .error)

theorem errors_append (before after : List Token) :
    errors (before ++ after) = errors before ++ errors after :=
  List.filter_append before after

theorem errors_cons_of_ne {token : Token} (h : token.kind ≠ .error) (rest : List Token) :
    errors (token :: rest) = errors rest :=
  List.filter_cons_of_neg (mt eq_of_beq h)

/-- The message of `fault` names the offset where `token` begins in `source`, and quotes the last 32
characters up to and including the one that stands there, or all of them when there are fewer. -/
def Announces (source : Text) (token : Token) (fault : LexicalFault) : Prop :=
  ∃ quoted c,
    fault.message = s!"Lexical error at offset {token.first}: [...{String.ofList quoted}]" ∧
      quoted <:+ source.take (token.first + 1) ∧ quoted.length = min 32 (token.first + 1) ∧
      source[token.first]? = some c ∧ quoted.getLast? = some c

namespace Lexer

variable {source : Text}

/-- The fault of an error token. -/
def faultOf (source : Text) (token : Token) : LexicalFault :=
  ⟨token.first, snippet source token.first⟩

/-! ### One fault for each error -/

theorem faults_readRest (start : Nat) (rest : Text) :
    (readRest .strict source start rest).faults =
      (errors (readRest .strict source start rest).tokens).map (faultOf source) := by
  cases rest <;> rfl

theorem faults_readWord (start : Nat) (word : Text) :
    (readWord .strict source start word).faults =
      (errors (readWord .strict source start word).tokens).map (faultOf source) := by
  cases word with
  | nil => rfl
  | cons c more =>
      rw [readWord]
      cases hrun : runOf? c with
      | none => exact faults_readRest start (c :: more)
      | some found =>
          obtain ⟨kind, continues⟩ := found
          have hbegins := (begins_of_runOf? hrun).1
          simp only [Reading.append, List.singleton_append, List.nil_append]
          -- the run itself is no error
          rw [errors_cons_of_ne (kind_runToken_ne_error hbegins start _), faults_readRest]

theorem faults_readPiece (start : Nat) (piece : Piece) :
    (readPiece .strict source start piece).faults =
      (errors (readPiece .strict source start piece).tokens).map (faultOf source) := by
  cases piece with
  | gap c => rfl
  | sign c => rfl
  | word text => exact faults_readWord start text

theorem faults_readPieces (start : Nat) (pieces : List Piece) :
    (readPieces .strict source start pieces).faults =
      (errors (readPieces .strict source start pieces).tokens).map (faultOf source) := by
  induction pieces generalizing start with
  | nil => rfl
  | cons piece more ih =>
      rw [readPieces, Reading.append, errors_append, List.map_append]
      exact congrArg₂ (· ++ ·) (faults_readPiece start piece) (ih _)

/-! ### What a fault quotes -/

/-- A fault quotes the end of the text up to its offset. -/
theorem snippet_suffix (source : Text) (offset : Nat) :
    snippet source offset <:+ source.take (offset + 1) :=
  List.drop_suffix _ _

theorem length_snippet {offset : Nat} (h : offset < source.length) :
    (snippet source offset).length = min snippetLimit (offset + 1) := by
  have hupTo : (source.take (offset + 1)).length = offset + 1 := by
    rw [List.length_take, Nat.min_eq_left h]
  rw [snippet, List.length_drop, hupTo]
  omega

/-- The last character that is quoted is the one at the offset. -/
theorem getLast?_snippet {offset : Nat} (h : offset < source.length) :
    (snippet source offset).getLast? = some source[offset] := by
  have hne : snippet source offset ≠ [] := by
    refine List.ne_nil_of_length_pos ?_
    rw [length_snippet h, snippetLimit]
    omega
  obtain ⟨before, hsplit⟩ := snippet_suffix source offset
  have hlast : (source.take (offset + 1)).getLast? = some source[offset] := by
    rw [List.take_succ_eq_append_getElem h, List.getLast?_concat]
  rwa [← hsplit, List.getLast?_append_of_ne_nil _ hne] at hlast

theorem announces_faultOf {token : Token} (h : token.first < source.length) :
    Announces source token (faultOf source token) :=
  ⟨snippet source token.first, source[token.first], rfl, snippet_suffix source token.first,
    length_snippet h, List.getElem?_eq_getElem h, getLast?_snippet h⟩

end Lexer

/-- **The faults of a text** are those of its error tokens. -/
theorem faults_eq_map_errors (source : Text) :
    (lex .strict source).faults =
      (errors (lex .strict source).body).map (Lexer.faultOf source) :=
  Lexer.faults_readPieces 0 (Lexer.pieces source)

/-- **What fits no token.**  Relaxed mode finds what strict mode finds, at the same offsets, but for
the error tokens and the faults.  In strict mode each error token is announced by one fault, in
their order, and no other fault is met.  The machine that reads character by character does the
same, in either mode. -/
theorem lex_skips_announced (source : Text) :
    (∀ mode, Machine.lex mode source = lex mode source) ∧
      lex .relaxed source =
        { lex .strict source with
          body := (lex .strict source).body.filter (·.kind != .error), faults := [] } ∧
      List.Forall₂ (Announces source) (errors (lex .strict source).body)
        (lex .strict source).faults := by
  refine ⟨fun mode => Machine.lex_eq mode source, ?_, ?_⟩
  · exact congrArg₂ (Lexed.mk · source.length ·) (body_relaxed source) (faults_relaxed source)
  · rw [faults_eq_map_errors, List.forall₂_map_right_iff, List.forall₂_same]
    intro token htoken
    have hmem : token ∈ (lex .strict source).body := (List.mem_filter.mp htoken).1
    obtain ⟨hfirst, hlast⟩ := bounds_of_mem_body hmem
    exact Lexer.announces_faultOf (Nat.lt_of_le_of_lt hfirst hlast)

end CounterFormula
