import CounterFormula.Proofs.Token.Relaxed

/-!
# Token — Surroundings

What stands around the symbols and variables of a text.  Each begins a word, so that a boundary
stands before it, and ends where its run cannot be carried on.  A text *breaks off* where, blanks
aside, a character stands that no name is carried on with.

* `stands_of_mem_body`: a symbol or a variable stands in the text as it is spelled, between a
  boundary and the end of its run.
* `exists_breaks_of_body`: behind one that a closing parenthesis follows the text breaks off.
-/

namespace CounterFormula

theorem Text.length_le_of_getElem? {text run rest : Text} {start offset : Nat} {c : Char}
    (h : text.drop start = run ++ rest) (hstart : start ≤ offset) (hc : text[offset]? = some c)
    (hrun : c ∉ run) : start + run.length ≤ offset := by
  refine Nat.le_of_not_lt fun hlt => hrun ?_
  have hdrop : (text.drop start)[offset - start]? = some c := by
    rw [List.getElem?_drop, Nat.add_sub_cancel' hstart, hc]
  rw [h, List.getElem?_append_left (by omega)] at hdrop
  exact List.mem_of_getElem? hdrop

namespace Lexer

variable {place : Place} {source text : Text} {start : Nat} {token : Token} {tokens : List Token}
  {c : Char}

/-- `text` does not end with a character of the class `p`. -/
def EndsOutside (p : Char → Bool) (text : Text) : Prop :=
  ∀ c, text.getLast? = some c → p c = false

theorem endsOutside_nil (p : Char → Bool) : EndsOutside p [] := nofun

theorem endsOutside_concat {p : Char → Bool} : EndsOutside p (text ++ [c]) ↔ p c = false := by
  rw [EndsOutside, List.getLast?_concat]
  exact ⟨fun h => h c rfl, fun h d hd => Option.some.inj hd ▸ h⟩

/-- `token` stands in `source` as it is spelled, a run between a boundary and a character that does
not carry it on. -/
structure Stands (source : Text) (token : Token) : Prop where
  before : EndsOutside inWord (source.take token.first)
  run : ∃ c more, token.text = c :: more ∧ Begins c token.kind ∧
    ∀ d ∈ more, carriesOn token.kind d = true
  drop_eq : source.drop token.first = token.text ++ source.drop (token.last + 1)
  behind : Stops (carriesOn token.kind) (source.drop (token.last + 1))

theorem take_of_drop_eq {run rest : Text} (h : source.drop start = run ++ rest) :
    source.take (start + run.length) = source.take start ++ run := by
  rw [List.take_add, h, List.take_left]

/-- A boundary that has been read ends what stands before. -/
theorem endsOutside_take {rest : Text} (h : source.drop start = c :: rest) (hc : inWord c = false) :
    EndsOutside inWord (source.take (start + 1)) := by
  have hrun : source.drop start = [c] ++ rest := h
  have htake := take_of_drop_eq hrun
  rw [List.length_singleton] at htake
  rw [htake]
  exact endsOutside_concat.mpr hc

theorem Scans.stands (h : Scans place start text tokens) (htext : source.drop start = text)
    (hplace : place = .boundary → Stops inWord text ∨ EndsOutside inWord (source.take start))
    (hmem : token ∈ tokens) (hkind : token.kind = .symbol ∨ token.kind = .var) :
    Stands source token := by
  induction h with
  | done => cases hmem
  | blank hc _ ih =>
      refine ih (Text.drop_of_drop_eq (show source.drop _ = [_] ++ _ from htext)) (fun _ => ?_) hmem
      exact .inr (endsOutside_take htext (inWord_of_isBlank hc))
  | sign hc _ ih =>
      rcases List.mem_cons.mp hmem with rfl | hmem
      · rcases hkind with hkind | hkind <;> cases hkind
      refine ih (Text.drop_of_drop_eq (show source.drop _ = [_] ++ _ from htext)) (fun _ => ?_) hmem
      exact .inr (endsOutside_take htext (inWord_of_isOperator hc))
  | @run start c kind more rest _ hc hmore hlongest _ ih =>
      have hrest := Text.drop_of_drop_eq htext
      rcases List.mem_cons.mp hmem with rfl | hmem
      · rcases kind_runToken kind start (c :: more) with hrun | hrun
        · rw [hrun] at hkind
          rcases hkind with hkind | hkind <;> cases hkind
        rw [hrun]
        have hlast : start + (c :: more).length - 1 + 1 = start + (c :: more).length := by
          rw [List.length_cons]
          omega
        refine ⟨(hplace rfl).resolve_left fun hstops => ?_, ⟨c, more, rfl, hc, hmore⟩, ?_, ?_⟩
        · have hword := inWord_of_begins hc
          rw [hstops c rfl] at hword
          cases hword
        · rw [Token.ofRun, hlast, hrest]
          exact htext
        · rw [Token.ofRun, hlast, hrest]
          exact hlongest
      · exact ih hrest (by rintro ⟨⟩) hmem
  | error _ _ hlongest _ ih =>
      rcases List.mem_cons.mp hmem with rfl | hmem
      · rcases hkind with hkind | hkind <;> cases hkind
      · exact ih (Text.drop_of_drop_eq htext) (fun _ => .inl hlongest) hmem

theorem not_continuesVariable_of_not_inWord (h : inWord c = false) :
    continuesVariable c = false := by
  refine Bool.eq_false_iff.mpr fun hc => ?_
  have hcarries : carriesOn .var c = true := hc
  rw [inWord_of_carriesOn hcarries] at h
  cases h

theorem not_continuesVariable_of_not_begins (h : ∀ kind, ¬ Begins c kind) :
    continuesVariable c = false := by
  have hsymbol : ¬ startsSymbol c = true := fun hc => h .symbol (.symbol hc)
  have hnumber : ¬ continuesNumber c = true := fun hc => h .number (.number hc)
  simp only [startsSymbol, Bool.or_eq_true, not_or, Bool.not_eq_true] at hsymbol
  simp only [continuesNumber, Bool.or_eq_true, not_or, Bool.not_eq_true] at hnumber
  simp only [continuesVariable, Char.isAlphanum, hsymbol, hnumber, Bool.or_false]

/-- No run reads as an operator but the minus sign. -/
theorem not_isOperator_runToken {kind : TokenClass} {sign : Char} (hc : Begins c kind)
    (hminus : sign ≠ '-') (start : Nat) (run : Text) :
    (runToken kind start run).isOperator sign = false := by
  refine Bool.eq_false_iff.mpr fun hsign => ?_
  obtain ⟨hkind, htext⟩ := Token.kind_of_isOperator hsign
  rw [runToken] at hkind htext
  split at htext
  · exact absurd (List.cons.inj htext).1.symm hminus
  · rename_i hrun
    rw [if_neg hrun] at hkind
    exact hc.ne_operator hkind

/-- `text` begins with `blanks` and then with `c`, which is not blank and carries no name on; `rest`
follows. -/
structure Breaks (text blanks : Text) (c : Char) (rest : Text) : Prop where
  eq_append : text = blanks ++ c :: rest
  isBlank : ∀ d ∈ blanks, Text.isBlank d = true
  not_isBlank : Text.isBlank c = false
  stops : continuesVariable c = false

/-- Only one character that is not blank is there. -/
theorem Breaks.not_mem {blanks rest : Text} {d : Char} (h : Breaks text blanks c rest)
    (hd : Text.isBlank d = false) (hne : d ≠ c) : d ∉ blanks ++ [c] := by
  intro hmem
  rcases List.mem_append.mp hmem with hmem | hmem
  · rw [h.isBlank d hmem] at hd
    cases hd
  · exact hne (List.mem_singleton.mp hmem)

/-- What stands elsewhere stands behind that character. -/
theorem Breaks.length_le {blanks rest : Text} {offset : Nat} {d : Char}
    (h : Breaks (source.drop start) blanks c rest) (hoffset : start ≤ offset)
    (hd : source[offset]? = some d) (hblank : Text.isBlank d = false) (hne : d ≠ c) :
    start + blanks.length < offset := by
  have hdrop : source.drop start = (blanks ++ [c]) ++ rest := by
    rw [h.eq_append, List.append_assoc, List.singleton_append]
  have hle := Text.length_le_of_getElem? hdrop hoffset hd (h.not_mem hblank hne)
  rw [List.length_append, List.length_singleton] at hle
  omega

/-- It begins with a character that is in no name, if not with a sigil. -/
theorem Breaks.head {blanks rest : Text} {d : Char} (h : Breaks text blanks c rest) (hc : c ≠ '$')
    (hd : text.head? = some d) : continuesVariable d = false ∧ d ≠ '$' := by
  rw [h.eq_append] at hd
  cases blanks with
  | nil =>
      obtain rfl := Option.some.inj hd
      exact ⟨h.stops, hc⟩
  | cons blank more =>
      obtain rfl := Option.some.inj hd
      have hblank := h.isBlank blank List.mem_cons_self
      refine ⟨not_continuesVariable_of_not_inWord (inWord_of_isBlank hblank), ?_⟩
      rintro rfl
      exact absurd hblank (by decide)

/-- A text breaks off before a closing parenthesis or an error is read: with a sigil only when it
stands directly behind a run. -/
theorem Scans.exists_breaks (h : Scans place start text (token :: tokens))
    (hplace : place = .run → Stops continuesVariable text)
    (hkind : token.kind = .error ∨ token.isOperator ')' = true) :
    ∃ blanks c rest, Breaks text blanks c rest ∧
      (c = '$' → blanks = [] ∧ place = .run ∧ token.kind = .error) := by
  generalize hall : token :: tokens = all at h
  induction h with
  | done => cases hall
  | @blank _ _ c rest _ hc _ ih =>
      obtain ⟨blanks, d, rest, ⟨rfl, hblanks, hd, hstops⟩, hsigil⟩ := ih nofun hall
      refine ⟨c :: blanks, d, rest, ⟨rfl, List.forall_mem_cons.mpr ⟨hc, hblanks⟩, hd, hstops⟩,
        fun heq => ?_⟩
      obtain ⟨-, hboundary, -⟩ := hsigil heq
      cases hboundary
  | @sign _ _ c rest _ hc _ _ =>
      refine ⟨[], c, rest, ⟨rfl, List.forall_mem_nil _, isBlank_of_isOperator hc,
        not_continuesVariable_of_not_inWord (inWord_of_isOperator hc)⟩, ?_⟩
      rintro rfl
      exact absurd hc (by decide)
  | @run start c kind more rest _ hc _ _ _ _ =>
      obtain ⟨rfl, -⟩ := List.cons.inj hall
      rcases hkind with hkind | hkind
      · exact absurd hkind (kind_runToken_ne_error hc start _)
      · rw [not_isOperator_runToken hc (by decide)] at hkind
        cases hkind
  | @error place start c more rest _ hc hbad _ _ _ =>
      obtain ⟨rfl, -⟩ := List.cons.inj hall
      refine ⟨[], c, more ++ rest, ⟨rfl, List.forall_mem_nil _,
        isBlank_of_inWord (hbad c List.mem_cons_self), ?_⟩, ?_⟩
      · cases place with
        | boundary => exact not_continuesVariable_of_not_begins (hc rfl)
        | run => exact stops_cons.mp (hplace rfl)
      · rintro rfl
        refine ⟨rfl, ?_, rfl⟩
        cases place with
        | boundary => exact absurd .var (hc rfl .var)
        | run => rfl

/-- Without a variable or an error, a sigil is in a symbol. -/
theorem Scans.exists_symbol (h : Scans place start text tokens)
    (hclean : ∀ token ∈ tokens, token.kind ≠ .error)
    (hvariable : ∀ token ∈ tokens, token.isVariable = false) (hsigil : '$' ∈ text) :
    ∃ token ∈ tokens, token.isSymbol = true ∧ '$' ∈ token.text := by
  induction h with
  | done => cases hsigil
  | blank hc _ ih =>
      rcases List.mem_cons.mp hsigil with rfl | hsigil
      · exact absurd hc (by decide)
      · exact ih hclean hvariable hsigil
  | sign hc _ ih =>
      rcases List.mem_cons.mp hsigil with rfl | hsigil
      · exact absurd hc (by decide)
      · obtain ⟨token, htoken, hsymbol⟩ := ih (List.forall_mem_cons.mp hclean).2
          (List.forall_mem_cons.mp hvariable).2 hsigil
        exact ⟨token, List.mem_cons_of_mem _ htoken, hsymbol⟩
  | @run start c kind more rest _ hc hmore _ _ ih =>
      obtain ⟨hfirst, hothers⟩ := List.forall_mem_cons.mp hvariable
      rcases List.mem_append.mp hsigil with hsigil | hsigil
      · refine ⟨_, List.mem_cons_self, ?_⟩
        cases hc with
        | symbol hc =>
            -- the word that reads as a minus sign has no sigil
            rw [runToken_of_mem hsigil (by decide)]
            exact ⟨rfl, hsigil⟩
        | var => cases hfirst
        | number hc =>
            rcases List.mem_cons.mp hsigil with rfl | hsigil
            · exact absurd hc (by decide)
            · exact absurd (hmore _ hsigil) (by decide)
      · obtain ⟨token, htoken, hsymbol⟩ := ih (List.forall_mem_cons.mp hclean).2 hothers hsigil
        exact ⟨token, List.mem_cons_of_mem _ htoken, hsymbol⟩
  | error _ _ _ _ _ => exact absurd rfl (hclean _ List.mem_cons_self)

end Lexer

/-! ### In either mode -/

variable {mode : Mode} {source : Text} {token next : Token} {before more : List Token}

/-- Relaxed mode makes no tokens of its own. -/
theorem mem_body_strict (hmem : token ∈ (lex mode source).body) :
    token ∈ (lex .strict source).body := by
  cases mode with
  | strict => exact hmem
  | relaxed =>
      rw [body_relaxed] at hmem
      exact (List.mem_filter.mp hmem).1

/-- **A symbol or a variable** stands where it is found. -/
theorem stands_of_mem_body (hmem : token ∈ (lex mode source).body)
    (hkind : token.kind = .symbol ∨ token.kind = .var) : Lexer.Stands source token :=
  (scans_iff.mpr rfl : Lexer.Scans .boundary 0 source _).stands rfl
    (fun _ => .inr (Lexer.endsOutside_nil _)) (mem_body_strict hmem) hkind

/-- The token behind another is the next one, or one that relaxed mode passes over. -/
theorem exists_scans_behind (h : (lex mode source).body = before ++ token :: next :: more) :
    ∃ place found rest,
      Lexer.Scans place (token.last + 1) (source.drop (token.last + 1)) (found :: rest) ∧
        (found = next ∨ mode = .relaxed ∧ found.kind = .error) := by
  have hscans : Lexer.Scans .boundary 0 source _ := scans_iff.mpr rfl
  cases mode with
  | strict =>
      rw [h] at hscans
      obtain ⟨-, place, hbehind⟩ := hscans.behind rfl
      exact ⟨place, next, more, hbehind, .inl rfl⟩
  | relaxed =>
      rw [body_relaxed] at h
      obtain ⟨front, back, hbody, -, hback⟩ := List.filter_eq_append_iff.mp h
      obtain ⟨skipped, back, rfl, -, -, hback⟩ := List.filter_eq_cons_iff.mp hback
      obtain ⟨errors, rest, rfl, herrors, -, -⟩ := List.filter_eq_cons_iff.mp hback
      rw [hbody, ← List.append_assoc] at hscans
      obtain ⟨-, place, hbehind⟩ := hscans.behind rfl
      cases errors with
      | nil => exact ⟨place, next, rest, hbehind, .inl rfl⟩
      | cons error errors =>
          refine ⟨place, error, _, hbehind, .inr ⟨rfl, ?_⟩⟩
          simpa using herrors error List.mem_cons_self

/-- **Behind a symbol or a variable** that a closing parenthesis follows the text breaks off: with a
sigil only in relaxed mode, and directly. -/
theorem exists_breaks_of_body (h : (lex mode source).body = before ++ token :: next :: more)
    (hkind : token.kind = .symbol ∨ token.kind = .var) (hnext : next.isOperator ')' = true) :
    ∃ blanks c rest, Lexer.Breaks (source.drop (token.last + 1)) blanks c rest ∧
      (c = '$' → blanks = [] ∧ mode = .relaxed) := by
  have hmem : token ∈ (lex mode source).body := by
    rw [h]
    exact List.mem_append_right _ List.mem_cons_self
  have hstops : Lexer.Stops Lexer.continuesVariable (source.drop (token.last + 1)) := by
    have hbehind := (stands_of_mem_body hmem hkind).behind
    intro c hc
    rcases hkind with hkind | hkind
    · rw [hkind] at hbehind
      have hsymbol : Lexer.continuesSymbol c = false := hbehind c hc
      rw [Lexer.continuesSymbol, Bool.or_eq_false_iff] at hsymbol
      exact hsymbol.1
    · rw [hkind] at hbehind
      exact hbehind c hc
  obtain ⟨place, found, rest, hscans, hfound⟩ := exists_scans_behind h
  have hfound' : found.kind = .error ∨ found.isOperator ')' = true :=
    hfound.elim (fun heq => .inr (heq ▸ hnext)) fun h => .inl h.2
  obtain ⟨blanks, c, behind, hbreaks, hsigil⟩ := hscans.exists_breaks (fun _ => hstops) hfound'
  refine ⟨blanks, c, behind, hbreaks, fun heq => ?_⟩
  obtain ⟨hnil, -, herror⟩ := hsigil heq
  refine ⟨hnil, ?_⟩
  rcases hfound with rfl | ⟨hmode, -⟩
  · rw [(Token.kind_of_isOperator hnext).1] at herror
    cases herror
  · exact hmode

end CounterFormula
