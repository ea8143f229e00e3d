import CounterFormula.Proofs.Token.Single

/-!
# Token — Written

How the tokens of a text are written in it.  Blanks stand before a token, and then the characters
it is read from, which are an operator or a run (`Written`).  Which blanks they are makes no
difference.

* `Scans.exists_run`: the blanks before a token, the characters it is read from, and the rest.
* `body_map`: a text with other blanks has the same tokens.
* `spellings_sign`, `spellings_blanks`: the tokens of a text that begins with an operator, or with
  blanks.
-/

namespace CounterFormula

theorem Token.kind_ne_error_of_isOperator {token : Token} {sign : Char}
    (h : token.isOperator sign = true) : token.kind ≠ .error := by
  rw [(kind_of_isOperator h).1]
  exact nofun

namespace Lexer

variable {place : Place} {source text run rest : Text} {start : Nat} {c sign : Char} {token : Token}
  {tokens : List Token}

/-- `Written token run`: the characters of `run` read as `token`, and not as an error. -/
inductive Written : Token → Text → Prop where
  | sign {start : Nat} {c : Char} (hc : isOperator c = true) : Written (operatorToken start c) [c]
  | run {start : Nat} {c : Char} {kind : TokenClass} {more : Text} (hc : Begins c kind)
      (hmore : ∀ d ∈ more, carriesOn kind d = true) :
      Written (runToken kind start (c :: more)) (c :: more)

/-- An operator is written with one character, if not with a word. -/
theorem Written.exists_sign (h : Written token run) (hsign : token.isOperator sign = true)
    (hminus : sign ≠ '-') :
    ∃ c, run = [c] ∧ isOperator c = true ∧
      (if c == summationGlyph then summationSign else c) = sign := by
  obtain ⟨hkind, htext⟩ := Token.kind_of_isOperator hsign
  cases h with
  | @sign start c hc => exact ⟨c, rfl, hc, (List.cons.inj htext).1⟩
  | run hc hmore =>
      rw [runToken] at hkind htext
      split at htext
      · exact absurd (List.cons.inj htext).1.symm hminus
      · rename_i hrun
        rw [if_neg hrun] at hkind
        exact absurd hkind hc.ne_operator

/-- Every operator but two is written in one way only. -/
theorem Written.eq_of_isOperator (h : Written token run) (hsign : token.isOperator sign = true)
    (hminus : sign ≠ '-') (hsum : sign ≠ summationSign) : run = [sign] := by
  obtain ⟨c, rfl, -, hc⟩ := h.exists_sign hsign hminus
  split at hc
  · exact absurd hc.symm hsum
  · rw [hc]

/-- A symbol is written as it is spelled. -/
theorem Written.of_isSymbol (h : Written token run) (hsymbol : token.isSymbol = true) :
    token.text = run ∧ ∃ c more, run = c :: more ∧ startsSymbol c = true ∧
      ∀ d ∈ more, continuesSymbol d = true := by
  have hkind := Token.kind_of_isSymbol hsymbol
  cases h with
  | sign => cases hkind
  | @run start c kind more hc hmore =>
      rcases kind_runToken kind start (c :: more) with hrun | hrun
      · rw [hrun] at hkind
        cases hkind
      · rw [hrun] at hkind ⊢
        obtain rfl : kind = .symbol := hkind
        cases hc with
        | symbol hc => exact ⟨rfl, c, more, rfl, hc, hmore⟩

theorem Scans.exists_run_append (h : Scans place start text (token :: tokens))
    (hkind : token.kind ≠ .error) :
    ∃ blanks run rest place', text = blanks ++ (run ++ rest) ∧
      (∀ c ∈ blanks, Text.isBlank c = true) ∧ Written token run ∧
      token.first = start + blanks.length ∧ token.last + 1 = token.first + run.length ∧
      Scans place' (token.last + 1) rest tokens := by
  generalize hall : token :: tokens = all at h
  induction h with
  | done => cases hall
  | @blank _ start c _ _ hc _ ih =>
      obtain ⟨blanks, run, rest, place', rfl, hblanks, hrun, hfirst, hlast, hrest⟩ := ih hall
      refine ⟨c :: blanks, run, rest, place', rfl, List.forall_mem_cons.mpr ⟨hc, hblanks⟩, hrun, ?_,
        hlast, hrest⟩
      rw [hfirst, List.length_cons, Nat.add_assoc, Nat.add_comm 1]
  | @sign _ start c rest _ hc h _ =>
      obtain ⟨rfl, rfl⟩ := List.cons.inj hall
      exact ⟨[], [c], rest, .boundary, rfl, List.forall_mem_nil _, .sign hc, rfl, rfl, h⟩
  | @run start c kind more rest _ hc hmore _ h _ =>
      obtain ⟨rfl, rfl⟩ := List.cons.inj hall
      have hlast : (runToken kind start (c :: more)).last + 1 = start + (c :: more).length := by
        rw [last_runToken]
        rfl
      rw [← hlast] at h
      refine ⟨[], c :: more, rest, .run, rfl, List.forall_mem_nil _, .run hc hmore, ?_, ?_, h⟩
      · rw [first_runToken]
        rfl
      · rw [hlast, first_runToken]
  | error =>
      obtain ⟨rfl, -⟩ := List.cons.inj hall
      exact absurd rfl hkind

/-- **The first token** of a text: the blanks before it, the characters it is read from, and the
rest. -/
theorem Scans.exists_run (h : Scans place start (source.drop start) (token :: tokens))
    (hkind : token.kind ≠ .error) :
    ∃ blanks run place', source.drop start = blanks ++ (run ++ source.drop (token.last + 1)) ∧
      (∀ c ∈ blanks, Text.isBlank c = true) ∧ Written token run ∧
      token.first = start + blanks.length ∧ token.last + 1 = token.first + run.length ∧
      Scans place' (token.last + 1) (source.drop (token.last + 1)) tokens := by
  obtain ⟨blanks, run, rest, place', htext, hblanks, hrun, hfirst, hlast, hrest⟩ :=
    h.exists_run_append hkind
  have hbehind : source.drop (token.last + 1) = rest := by
    rw [hlast, hfirst]
    exact Text.drop_of_drop_eq (Text.drop_of_drop_eq htext)
  rw [← hbehind] at htext hrest
  exact ⟨blanks, run, place', htext, hblanks, hrun, hfirst, hlast, hrest⟩

/-! ### Other blanks -/

/-- `f` makes blanks of the blanks in `text`, and leaves all else as it is. -/
structure Reblanks (f : Char → Char) (text : Text) : Prop where
  blank : ∀ c ∈ text, Text.isBlank c = true → Text.isBlank (f c) = true
  other : ∀ c ∈ text, Text.isBlank c = false → f c = c

variable {f : Char → Char}

theorem Reblanks.sublist {less : Text} (h : Reblanks f text) (hsub : less.Sublist text) :
    Reblanks f less :=
  ⟨fun c hc => h.blank c (hsub.subset hc), fun c hc => h.other c (hsub.subset hc)⟩

theorem Reblanks.tail (h : Reblanks f (c :: rest)) : Reblanks f rest :=
  h.sublist (List.sublist_cons_self c rest)

theorem Reblanks.right (h : Reblanks f (run ++ rest)) : Reblanks f rest :=
  h.sublist (List.sublist_append_right run rest)

theorem Reblanks.map_append (h : Reblanks f (run ++ rest)) (hrun : ∀ c ∈ run, inWord c = true) :
    (run ++ rest).map f = run ++ rest.map f := by
  have hsame : ∀ c ∈ run, f c = c := fun c hc =>
    h.other c (List.mem_append_left rest hc) (isBlank_of_inWord (hrun c hc))
  rw [List.map_append, List.map_congr_left hsame, List.map_id']

theorem Reblanks.stops {p : Char → Bool} (h : Reblanks f rest)
    (hp : ∀ c, Text.isBlank c = true → p c = false) (hrest : Stops p rest) :
    Stops p (rest.map f) := by
  cases rest with
  | nil => exact stops_nil p
  | cons c rest =>
      refine stops_cons.mpr ?_
      cases hc : Text.isBlank c with
      | true => exact hp _ (h.blank c List.mem_cons_self hc)
      | false =>
          rw [h.other c List.mem_cons_self hc]
          exact stops_cons.mp hrest

theorem not_carriesOn_of_isBlank (kind : TokenClass) (hc : Text.isBlank c = true) :
    carriesOn kind c = false := by
  refine Bool.eq_false_iff.mpr fun hcarries => ?_
  have hword := inWord_of_carriesOn hcarries
  rw [inWord_of_isBlank hc] at hword
  cases hword

/-- **Which blanks they are** makes no difference. -/
theorem Scans.map (h : Scans place start text tokens) (hf : Reblanks f text) :
    Scans place start (text.map f) tokens := by
  induction h with
  | done => exact .done
  | blank hc _ ih => exact .blank (hf.blank _ List.mem_cons_self hc) (ih hf.tail)
  | sign hc _ ih =>
      rw [List.map_cons, hf.other _ List.mem_cons_self (isBlank_of_isOperator hc)]
      exact .sign hc (ih hf.tail)
  | @run start c kind more rest _ hc hmore hlongest _ ih =>
      have hrun : ∀ d ∈ c :: more, inWord d = true := List.forall_mem_cons.mpr
        ⟨inWord_of_begins hc, fun d hd => inWord_of_carriesOn (hmore d hd)⟩
      rw [hf.map_append hrun]
      exact .run hc hmore (hf.right.stops (fun _ => not_carriesOn_of_isBlank kind) hlongest)
        (ih hf.right)
  | error hc hbad hlongest _ ih =>
      rw [hf.map_append hbad]
      exact .error hc hbad (hf.right.stops (fun _ => inWord_of_isBlank) hlongest) (ih hf.right)

end Lexer

open Lexer (Parted EndsOutside Reblanks)

variable {mode : Mode} {source text blanks : Text} {c : Char} {f : Char → Char} {token : Token}

/-- **A token is written** where it stands, if it is not an error. -/
theorem exists_written (hmem : token ∈ (lex mode source).body) (hkind : token.kind ≠ .error) :
    ∃ run, Lexer.Written token run ∧
      source.drop token.first = run ++ source.drop (token.last + 1) ∧
      token.last + 1 = token.first + run.length := by
  obtain ⟨before, after, hbody⟩ := List.append_of_mem (mem_body_strict hmem)
  have hscans : Lexer.Scans .boundary 0 source (lex .strict source).body := scans_iff.mpr rfl
  rw [hbody] at hscans
  obtain ⟨place, start, hread⟩ := hscans.exists_of_append rfl
  obtain ⟨place, -, hread⟩ := hread.skip rfl
  obtain ⟨blanks, run, -, hdrop, -, hrun, hfirst, hlast, -⟩ := hread.exists_run hkind
  obtain rfl : blanks = [] := List.length_eq_zero_iff.mp (by omega)
  exact ⟨run, hrun, hdrop, hlast⟩

theorem body_map (mode : Mode) (hf : Reblanks f text) :
    (lex mode (text.map f)).body = (lex mode text).body := by
  have hstrict : (lex .strict (text.map f)).body = (lex .strict text).body :=
    (scans_iff.mp ((scans_iff.mpr rfl : Lexer.Scans .boundary 0 text _).map hf)).symm
  cases mode with
  | strict => exact hstrict
  | relaxed => rw [body_relaxed, body_relaxed, hstrict]

/-! ### What a text begins with -/

theorem spellings_sign (mode : Mode) (hc : Lexer.isOperator c = true) (text : Text) :
    spellings mode (c :: text) = (Lexer.operatorToken 0 c).spelling :: spellings mode text := by
  have hsign : EndsOutside Lexer.inWord ([] ++ [c]) :=
    Lexer.endsOutside_concat.mpr (Lexer.inWord_of_isOperator hc)
  have hread : spellings mode [c] = [(Lexer.operatorToken 0 c).spelling] := by
    rw [spellings, lex, Lexer.pieces_sign hc]
    rfl
  have hparts : spellings mode ([c] ++ text) = spellings mode [c] ++ spellings mode text :=
    spelling_append mode (.inl hsign)
  rw [hread] at hparts
  exact hparts

theorem spellings_blanks (mode : Mode) (h : ∀ c ∈ blanks, Text.isBlank c = true) (text : Text) :
    spellings mode (blanks ++ text) = spellings mode text := by
  have hends : EndsOutside Lexer.inWord blanks := fun c hc =>
    Lexer.inWord_of_isBlank (h c (List.mem_of_getLast? hc))
  rw [spelling_append mode (.inl hends), spellings, body_of_isBlank mode h]
  rfl

/-- What reads without an error in strict mode, reads so in either mode. -/
theorem spellings_of_no_error (mode : Mode)
    (h : ∀ found ∈ spellings .strict text, found.1 ≠ .error) :
    spellings mode text = spellings .strict text := by
  cases mode with
  | strict => rfl
  | relaxed =>
      rw [spellings, body_relaxed, List.filter_eq_self.mpr]
      · rfl
      · intro token htoken
        exact bne_iff_ne.mpr (h _ (List.mem_map_of_mem htoken))

end CounterFormula
