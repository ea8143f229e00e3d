import CounterFormula.Proofs.Token.Machine
import CounterFormula.Proofs.Token.Order

/-!
# Token — Longest match

The machine against the longest-match reading of a text, and what follows for the tokens of a
text: where they lie, which characters they lie on, and what they spell.

* `covers_of_scans`: the tokens lie on the characters that are not blank, and on no others.
* `spelled_of_scans`: a token spells the characters it lies on, two spellings apart.
* `lex_eq_longest_match`: the machine finds the longest-match reading.
-/

namespace CounterFormula

namespace Lexer

variable {place : Place} {source text run rest : Text} {start : Nat} {c : Char} {token : Token}
  {tokens : List Token}

/-! ### The characters that tokens lie on -/

/-- `tokens` lie on the characters of `text`, which begins at offset `start`, that are not
blank. -/
def Covers (start : Nat) (text : Text) (tokens : List Token) : Prop :=
  ∀ offset, (∃ token ∈ tokens, token.first ≤ offset ∧ offset ≤ token.last) ↔
    ∃ c, start ≤ offset ∧ text[offset - start]? = some c ∧ Text.isBlank c = false

theorem exists_mem_cons {p : Token → Prop} :
    (∃ found ∈ token :: tokens, p found) ↔ p token ∨ ∃ found ∈ tokens, p found := by
  simp only [List.mem_cons, exists_eq_or_imp]

theorem Covers.nil (start : Nat) : Covers start [] [] := by
  intro offset
  simp

theorem Covers.blank (hc : Text.isBlank c = true) (h : Covers (start + 1) rest tokens) :
    Covers start (c :: rest) tokens := by
  intro offset
  rw [h offset]
  refine exists_congr fun d => ?_
  rcases Nat.lt_trichotomy offset start with hlt | rfl | hlt
  · exact iff_of_false (fun h => by omega) (fun h => by omega)
  · refine iff_of_false (fun h => by omega) fun h => ?_
    rw [Nat.sub_self, List.getElem?_cons_zero, Option.some.injEq] at h
    obtain ⟨-, rfl, hd⟩ := h
    rw [hc] at hd
    cases hd
  · have hback : offset - start = offset - (start + 1) + 1 := by omega
    rw [hback, List.getElem?_cons_succ]
    exact and_congr_left fun _ => ⟨fun _ => by omega, fun _ => hlt⟩

/-- A token on a stretch without blanks, and tokens on the rest. -/
theorem Covers.cons (hfirst : token.first = start) (hlast : token.last + 1 = start + run.length)
    (hrun : ∀ c ∈ run, Text.isBlank c = false) (h : Covers (start + run.length) rest tokens) :
    Covers start (run ++ rest) (token :: tokens) := by
  intro offset
  rw [exists_mem_cons, h offset]
  by_cases hmem : start ≤ offset ∧ offset < start + run.length
  · refine iff_of_true (.inl (by omega)) ?_
    have hlt : offset - start < run.length := by omega
    refine ⟨run[offset - start], hmem.1, ?_, hrun _ (List.getElem_mem hlt)⟩
    rw [List.getElem?_append_left hlt, List.getElem?_eq_getElem hlt]
  · have hnot : ¬ (token.first ≤ offset ∧ offset ≤ token.last) := by omega
    rw [or_iff_right hnot]
    refine exists_congr fun d => ?_
    by_cases hbehind : start + run.length ≤ offset
    · have hback : offset - start - run.length = offset - (start + run.length) := by omega
      rw [List.getElem?_append_right (by omega), hback]
      exact and_congr_left fun _ => ⟨fun _ => by omega, fun _ => hbehind⟩
    · exact iff_of_false (fun h => hbehind h.1) fun h => hmem ⟨h.1, by omega⟩

theorem isBlank_of_run {kind : TokenClass} {more : Text} (hc : Begins c kind)
    (hmore : ∀ d ∈ more, carriesOn kind d = true) : ∀ d ∈ c :: more, Text.isBlank d = false :=
  List.forall_mem_cons.mpr ⟨isBlank_of_inWord (inWord_of_begins hc),
    fun d hd => isBlank_of_inWord (inWord_of_carriesOn (hmore d hd))⟩

/-- **No character is lost**, and a blank makes no token. -/
theorem covers_of_scans (h : Scans place start text tokens) : Covers start text tokens := by
  induction h with
  | done => exact .nil _
  | blank hc _ ih => exact .blank hc ih
  | @sign _ start c rest _ hc _ ih =>
      have hrun : ∀ d ∈ [c], Text.isBlank d = false :=
        List.forall_mem_singleton.mpr (isBlank_of_isOperator hc)
      exact .cons rfl rfl hrun ih
  | @run start c kind more rest _ hc hmore _ _ ih =>
      refine .cons (first_runToken kind start _) ?_ (isBlank_of_run hc hmore) ih
      rw [last_runToken, List.length_cons]
      rfl
  | error _ hbad _ _ ih => exact .cons rfl rfl (fun d hd => isBlank_of_inWord (hbad d hd)) ih

/-! ### What tokens spell -/

theorem slice_of_drop_eq (hne : run ≠ []) (h : source.drop start = run ++ rest) :
    Text.slice source start (start + run.length - 1) = run := by
  have hpos : 0 < run.length := List.length_pos_iff.mpr hne
  have hlength : start + run.length - 1 + 1 - start = run.length := by omega
  rw [Text.slice, h, hlength, List.take_left]

/-- `token` spells the characters of `source` that it lies on, as a token of one of the classes
that the machine knows. -/
def Spelled (source : Text) (token : Token) : Prop :=
  ∃ kind, token = Machine.token kind (Text.slice source token.first token.last) token.first
    (token.last + 1)

theorem spelled_token (kind : TokenClass) (hne : run ≠ [])
    (htext : source.drop start = run ++ rest) :
    Spelled source (Machine.token kind run start (start + run.length)) := by
  have hpos : 0 < run.length := List.length_pos_iff.mpr hne
  obtain ⟨hfirst, hlast⟩ := Machine.span_token kind run start (start + run.length)
  refine ⟨kind, ?_⟩
  rw [hfirst, hlast, slice_of_drop_eq hne htext, Nat.sub_add_cancel (by omega)]

/-- **A token spells its characters**, but for the word that reads as a minus sign and the
glyph. -/
theorem spelled_of_scans (h : Scans place start text tokens) (htext : source.drop start = text) :
    ∀ token ∈ tokens, Spelled source token := by
  induction h with
  | done => exact nofun
  | @blank _ _ c rest _ _ _ ih =>
      have hrest : source.drop _ = [c] ++ rest := htext
      exact ih (Text.drop_of_drop_eq hrest)
  | @sign _ start c rest _ _ _ ih =>
      have hrest : source.drop start = [c] ++ rest := htext
      refine List.forall_mem_cons.mpr ⟨?_, ih (Text.drop_of_drop_eq hrest)⟩
      rw [← Machine.token_sign]
      exact spelled_token .operator (List.cons_ne_nil c []) hrest
  | @run start c kind more _ _ hc _ _ _ ih =>
      refine List.forall_mem_cons.mpr ⟨?_, ih (Text.drop_of_drop_eq htext)⟩
      rw [← Machine.token_run hc]
      exact spelled_token kind (List.cons_ne_nil c more) htext
  | @error _ start c more _ _ _ _ _ _ ih =>
      refine List.forall_mem_cons.mpr ⟨?_, ih (Text.drop_of_drop_eq htext)⟩
      rw [← Machine.token_error]
      exact spelled_token .error (List.cons_ne_nil c more) htext

end Lexer

/-- **The machine finds the longest-match reading** of a text, which is the only one.  Its tokens
lie in the text one after the other, none of them empty, on exactly the characters that are not
blank, and each spells the characters it lies on, two spellings apart. -/
theorem lex_eq_longest_match (source : Text) :
    Machine.lex .strict source = lex .strict source ∧
      (∀ tokens, Lexer.Scans .boundary 0 source tokens ↔ tokens = (lex .strict source).body) ∧
      Span.Laid 0 source.length ((lex .strict source).body.map Token.span) ∧
      (∀ offset,
        (∃ token ∈ (lex .strict source).body, token.first ≤ offset ∧ offset ≤ token.last) ↔
          ∃ c, source[offset]? = some c ∧ Text.isBlank c = false) ∧
      ∀ token ∈ (lex .strict source).body, Lexer.Spelled source token := by
  have hscans := scans_iff.mpr (rfl : (lex .strict source).body = _)
  refine ⟨Machine.lex_eq .strict source, fun tokens => scans_iff, laid_span_body .strict source,
    fun offset => ?_, Lexer.spelled_of_scans hscans rfl⟩
  rw [Lexer.covers_of_scans hscans offset]
  simp

end CounterFormula
