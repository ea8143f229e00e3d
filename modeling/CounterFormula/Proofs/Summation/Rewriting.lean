import CounterFormula.Proofs.Reference.Occurrence
import CounterFormula.Proofs.Summation.Faultless
import CounterFormula.Proofs.Token.Resume

/-!
# Summation — Rewriting

What the expanded formula reads as, when summations are expanded without a fault.  A token is *at
rest* when it is no summation sign, not the head of a reference and no error.  Each summation gives
way to the tokens of its sum, which are all at rest and begin with a parenthesis, and every other
token is read again as it was (`Rewritten`).

* `exists_rewritten_of_read?`: one summation rewritten, when what stands behind it can be.
* `exists_rewritten`: the expanded formula reads as the formula with its summations rewritten.
* `Rewritten.sites_eq_nil`, `Rewritten.occurrences_eq_nil`: so it asks for no sum, and for no
  reference that the formula before did not ask for.
-/

namespace CounterFormula

namespace Summation

open Lexer (Begins Scans carriesOn continuesSymbol inWord operatorToken runToken startsSymbol)

/-- A token that asks for nothing. -/
structure AtRest (token : Token) : Prop where
  not_sign : token.isOperator Lexer.summationSign = false
  not_head : token.isNamed Reference.head = false
  not_error : token.kind ≠ .error

/-- `Rewritten tokens outs`: with its summations rewritten, `tokens` reads as `outs`. -/
inductive Rewritten : List Token → List Token → Prop where
  | nil : Rewritten [] []
  | keep {token out : Token} {rest outs : List Token} (hkind : out.kind = token.kind)
      (htext : out.text = token.text) (hread : read? (token :: rest) = none)
      (h : Rewritten rest outs) : Rewritten (token :: rest) (out :: outs)
  | sum {token last opening : Token} {inside rest new outs : List Token} {summation : Summation}
      (hread : read? (token :: (inside ++ last :: rest)) = some (summation, last, []))
      (hopening : opening.isOperator '(' = true) (hnew : ∀ token ∈ opening :: new, AtRest token)
      (h : Rewritten rest outs) :
      Rewritten (token :: (inside ++ last :: rest)) (opening :: new ++ outs)

/-! ### The tokens of a sum -/

/-- A symbol with a dot in it, as the terms of a sum are. -/
def IsTerm (text : Text) : Prop :=
  ∃ c more, text = c :: more ∧ startsSymbol c = true ∧ (∀ d ∈ more, continuesSymbol d = true) ∧
    '.' ∈ more

theorem atRest_operatorToken (start : Nat) {c : Char} (h : c ≠ Lexer.summationGlyph)
    (hsign : c ≠ Lexer.summationSign) : AtRest (operatorToken start c) := by
  have hglyph : (c == Lexer.summationGlyph) = false := beq_eq_false_iff_ne.mpr h
  refine ⟨?_, rfl, nofun⟩
  simp only [operatorToken, hglyph, Bool.false_eq_true, if_false, Token.isOperator, Token.ofRun,
    beq_self_eq_true, Bool.true_and, beq_eq_false_iff_ne, ne_eq, List.cons.injEq, and_true]
  exact hsign

/-- A symbol with a dot in it is neither the reserved word nor the head of a reference. -/
theorem atRest_runToken {text : Text} (hdot : '.' ∈ text) (start : Nat) :
    AtRest (runToken .symbol start text) := by
  have hkind : (Token.ofRun .symbol start text).kind = .symbol := rfl
  rw [Lexer.runToken_of_mem hdot (by decide)]
  refine ⟨rfl, Bool.eq_false_iff.mpr fun hhead => ?_, by rw [hkind]; decide⟩
  have htext : text = Reference.head := Token.text_of_isNamed hhead
  rw [htext] at hdot
  exact absurd hdot (by decide)

/-- The class and the text of each token that the sum of `terms` reads as. -/
def sumSpellings (terms : List Text) : List (TokenClass × Text) :=
  (.operator, ['(']) ::
    ((terms.map fun text => (TokenClass.symbol, text)).intersperse (.operator, ['+']) ++
      [(.operator, [')'])])

/-- A term with the sign behind it. -/
theorem scans_term {text rest : Text} {sign : Char} {start : Nat} {tokens : List Token}
    (hterm : IsTerm text) (hoperator : Lexer.isOperator sign = true)
    (hglyph : sign ≠ Lexer.summationGlyph) (hsign : sign ≠ Lexer.summationSign)
    (h : Scans .boundary (start + (text ++ [sign]).length) rest tokens) :
    ∃ new, (∀ token ∈ new, AtRest token) ∧
      new.map Token.spelling = [(.symbol, text), (.operator, [sign])] ∧
      Scans .boundary start (text ++ [sign] ++ rest) (new ++ tokens) := by
  obtain ⟨c, more, rfl, hc, hmore, hdot⟩ := hterm
  have hends : continuesSymbol sign = false := by
    refine Bool.eq_false_iff.mpr fun hcarries => ?_
    have hcarries' : carriesOn .symbol sign = true := hcarries
    rw [Lexer.isOperator_of_inWord (Lexer.inWord_of_carriesOn hcarries')] at hoperator
    cases hoperator
  rw [List.length_append, ← Nat.add_assoc] at h
  refine ⟨[runToken .symbol start (c :: more), operatorToken (start + (c :: more).length) sign],
    ?_, ?_, ?_⟩
  · exact List.forall_mem_cons.mpr ⟨atRest_runToken (List.mem_cons_of_mem c hdot) start,
      List.forall_mem_singleton.mpr (atRest_operatorToken _ hglyph hsign)⟩
  · rw [Lexer.runToken_of_mem (List.mem_cons_of_mem c hdot) (by decide), operatorToken,
      if_neg (by simpa using hglyph)]
    rfl
  · rw [List.append_assoc]
    exact .run (.symbol hc) hmore (Lexer.stops_cons.mpr hends) (.sign hoperator h)

theorem scans_terms {terms : List Text} (hne : terms ≠ []) (hterms : ∀ text ∈ terms, IsTerm text)
    (start : Nat) {rest : Text} {tokens : List Token}
    (h : Scans .boundary (start + (Text.join ['+'] terms ++ [')']).length) rest tokens) :
    ∃ new, (∀ token ∈ new, AtRest token) ∧
      (.operator, ['(']) :: new.map Token.spelling = sumSpellings terms ∧
      Scans .boundary start (Text.join ['+'] terms ++ [')'] ++ rest) (new ++ tokens) := by
  induction terms generalizing start with
  | nil => exact absurd rfl hne
  | cons text more ih =>
      obtain ⟨hterm, hmore⟩ := List.forall_mem_cons.mp hterms
      cases more with
      | nil =>
          rw [Text.join, List.intercalate_singleton] at h ⊢
          obtain ⟨new, hnew, hspelled, hread⟩ :=
            scans_term hterm (by decide) (by decide) (by decide) h
          exact ⟨new, hnew, congrArg _ hspelled, hread⟩
      | cons text' more =>
          have hjoin : Text.join ['+'] (text :: text' :: more) =
              text ++ ['+'] ++ Text.join ['+'] (text' :: more) := List.intercalate_cons_cons
          rw [hjoin, List.append_assoc, List.length_append, ← Nat.add_assoc] at h
          obtain ⟨new, hnew, hspelled, hread⟩ := ih (List.cons_ne_nil _ _) hmore _ h
          obtain ⟨new', hnew', hspelled', hread'⟩ :=
            scans_term hterm (by decide) (by decide) (by decide) hread
          refine ⟨new' ++ new, List.forall_mem_append.mpr ⟨hnew', hnew⟩, ?_, ?_⟩
          · rw [List.map_append, hspelled', (List.cons.inj hspelled).2]
            rfl
          · rw [hjoin]
            simpa only [List.append_assoc] using hread'

/-- **A sum** reads as a parenthesis and tokens at rest, whatever stands around it. -/
theorem scans_sum {terms : List Text} (hne : terms ≠ []) (hterms : ∀ text ∈ terms, IsTerm text)
    (place : Lexer.Place) (start : Nat) {rest : Text} {tokens : List Token}
    (h : Scans .boundary (start + (sum terms).length) rest tokens) :
    ∃ opening new, opening.isOperator '(' = true ∧ (∀ token ∈ opening :: new, AtRest token) ∧
      (opening :: new).map Token.spelling = sumSpellings terms ∧
      Scans place start (sum terms ++ rest) (opening :: new ++ tokens) := by
  have hsum : sum terms = '(' :: (Text.join ['+'] terms ++ [')']) := by
    rw [sum, if_neg (by simpa using hne)]
    rfl
  rw [hsum, List.length_cons, Nat.add_comm _ 1, ← Nat.add_assoc] at h
  obtain ⟨new, hnew, hspelled, hread⟩ := scans_terms hne hterms (start + 1) h
  refine ⟨operatorToken start '(', new, rfl, ?_, hspelled, ?_⟩
  · exact List.forall_mem_cons.mpr ⟨atRest_operatorToken start (by decide) (by decide), hnew⟩
  · rw [hsum]
    exact .sign (by decide) hread

/-! ### The expanded formula -/

theorem Rewritten.no_error {tokens outs : List Token} (h : Rewritten tokens outs)
    (hclean : ∀ token ∈ tokens, token.kind ≠ .error) : ∀ out ∈ outs, out.kind ≠ .error := by
  induction h with
  | nil => exact nofun
  | keep hkind _ _ _ ih =>
      obtain ⟨htoken, hrest⟩ := List.forall_mem_cons.mp hclean
      exact List.forall_mem_cons.mpr ⟨by rwa [hkind], ih hrest⟩
  | sum _ _ hnew _ ih =>
      obtain ⟨-, hinside⟩ := List.forall_mem_cons.mp hclean
      obtain ⟨-, hlast⟩ := List.forall_mem_append.mp hinside
      obtain ⟨-, hrest⟩ := List.forall_mem_cons.mp hlast
      exact List.forall_mem_append.mpr ⟨fun token htoken => (hnew token htoken).not_error, ih hrest⟩

/-- The suffixes of the screenings carry the symbol on that they are put behind. -/
def Suffixed (screenings : Option ScreeningRegistry) : Prop :=
  ∀ registry, screenings = some registry →
    ∀ row ∈ registry.rows, ∀ c ∈ row.suffix, continuesSymbol c = true

variable {config : Config} {screenings : Option ScreeningRegistry}

theorem suffixed_none : Suffixed none := by
  intro registry hregistry
  cases hregistry

theorem suffixed_some {registry : ScreeningRegistry}
    (h : ∀ row ∈ registry.rows, ∀ c ∈ row.suffix, continuesSymbol c = true) :
    Suffixed (some registry) := by
  intro registry' hregistry
  rwa [← Option.some.inj hregistry]

theorem isTerm_term {summation : Summation} {row : Screening}
    (hcounter : ∃ c more, summation.counter = c :: more ∧ startsSymbol c = true ∧
      ∀ d ∈ more, continuesSymbol d = true)
    (hsuffix : ∀ c ∈ row.suffix, continuesSymbol c = true) : IsTerm (summation.term row) := by
  obtain ⟨c, more, htext, hc, hmore⟩ := hcounter
  refine ⟨c, more ++ ['.'] ++ row.suffix, ?_, hc, ?_, ?_⟩
  · rw [term, htext]
    rfl
  · exact List.forall_mem_append.mpr
      ⟨List.forall_mem_append.mpr ⟨hmore, List.forall_mem_singleton.mpr (by decide)⟩, hsuffix⟩
  · exact List.mem_append_left _ (List.mem_append_right _ List.mem_cons_self)

/-- A summation that asks for something expands to a sum of terms. -/
theorem exists_terms {place : Lexer.Place} {text : Text} {start : Nat} {token last : Token}
    {tokens : List Token} {summation : Summation} {faults : List SummationFault}
    (h : Scans place start text tokens)
    (hread : read? (token :: tokens) = some (summation, last, faults))
    (hexpand : (summation.expand config screenings).2 = []) (hasks : summation.Asks)
    (hsuffixed : Suffixed screenings) :
    ∃ terms, terms ≠ [] ∧ (∀ text ∈ terms, IsTerm text) ∧
      (summation.expand config screenings).1 = sum terms := by
  obtain ⟨counter, hcounter, hsymbol, hname⟩ := counter_of_read? hread
  obtain ⟨c, more, hspelled⟩ := h.text_of_isSymbol hcounter hsymbol
  obtain ⟨registry, rows, hregistry, hrows, hmem, hexpanded⟩ := expand_faultless hexpand hasks
  refine ⟨rows.map summation.term, by simpa using hrows, fun text htext => ?_, hexpanded⟩
  obtain ⟨row, hrow, rfl⟩ := List.mem_map.mp htext
  exact isTerm_term ⟨c, more, by rwa [hname]⟩ (hsuffixed registry hregistry row (hmem row hrow))

theorem read?_eq_none_of_not_sign {token : Token}
    (h : token.isOperator Lexer.summationSign = false) (rest : List Token) :
    read? (token :: rest) = none := by
  refine Option.eq_none_iff_forall_ne_some.mpr fun found hfound => ?_
  obtain ⟨sign, _, _, htokens, hsign, -⟩ := read?_inv hfound
  obtain ⟨rfl, -⟩ := List.cons.inj htokens
  rw [h] at hsign
  cases hsign

theorem read?_eq_none_of_not_counter {counter : Token} (h : counter.isSymbol = false)
    (sign : Token) (rest : List Token) : read? (sign :: counter :: rest) = none := by
  refine Option.eq_none_iff_forall_ne_some.mpr fun found hfound => ?_
  obtain ⟨_, _, _, htokens, -, hcounter, -⟩ := read?_inv hfound
  obtain ⟨rfl, -⟩ := List.cons.inj (List.cons.inj htokens).2
  rw [h] at hcounter
  cases hcounter

theorem read?_singleton (token : Token) : read? [token] = none := by
  refine Option.eq_none_iff_forall_ne_some.mpr fun found hfound => ?_
  obtain ⟨_, _, _, htokens, -⟩ := read?_inv hfound
  cases htokens

/-- A run is no summation sign, and reads the same wherever it stands. -/
theorem runToken_cases (kind : TokenClass) (hkind : kind ≠ .operator) (start start' : Nat)
    (run : Text) :
    (runToken kind start run).isOperator Lexer.summationSign = false ∧
      (runToken kind start' run).kind = (runToken kind start run).kind ∧
      (runToken kind start' run).text = (runToken kind start run).text := by
  unfold runToken
  split
  · exact ⟨rfl, rfl, rfl⟩
  · refine ⟨?_, rfl, rfl⟩
    rw [Token.isOperator, Token.ofRun, beq_eq_false_iff_ne.mpr hkind, Bool.false_and]

theorem start_le_of_mem_expansions {place : Lexer.Place} {source text : Text} {start : Nat}
    {tokens : List Token} (h : Scans place start text tokens) (htext : source.drop start = text) :
    ∀ patch ∈ expansions config screenings (sites tokens), start ≤ patch.1.first := by
  intro patch hpatch
  obtain ⟨site, hsite, rfl⟩ := List.mem_map.mp hpatch
  obtain ⟨token, htoken, hfirst⟩ := exists_first_eq_of_mem_sites hsite
  rw [hfirst]
  exact h.start_le htext token htoken

/-- **One summation**, found at a sign.  Its sum begins with a parenthesis, whatever stands before it,
and ends at a boundary; so when all that stands behind the summation reads as rewritten, the formula
does from the sign on. -/
theorem exists_rewritten_of_read? {place : Lexer.Place} {source rest : Text} {start : Nat} {c : Char}
    {tokens : List Token} {summation : Summation} {last : Token}
    (h : Scans .boundary (start + 1) rest tokens) (hrest : source.drop (start + 1) = rest)
    (hclean : ∀ token ∈ tokens, token.kind ≠ .error)
    (hread : read? (operatorToken start c :: tokens) = some (summation, last, []))
    (hexpand : (summation.expand config screenings).2 = [])
    (hasks : ∀ site ∈ sites (operatorToken start c :: tokens), site.1.Asks)
    (hsuffixed : Suffixed screenings) (start' : Nat)
    (hbehind : ∀ place' inside after, tokens = inside ++ last :: after →
      Scans place' (last.last + 1) (source.drop (last.last + 1)) after →
        (∀ site ∈ sites after, site.1.Asks) → ∀ start'', ∃ outs,
          Scans place' start'' (Text.patchFrom source (last.last + 1)
            (expansions config screenings (sites after))) outs ∧ Rewritten after outs) :
    ∃ outs, Scans place start' (Text.patchFrom source start
        (expansions config screenings (sites (operatorToken start c :: tokens)))) outs ∧
      Rewritten (operatorToken start c :: tokens) outs := by
  obtain ⟨inside, after, rfl, hinside, hlast⟩ := read?_faultless hread
  rw [sites_of_read? hread hinside hlast] at hasks ⊢
  obtain ⟨hthis, hasks'⟩ := List.forall_mem_cons.mp hasks
  obtain ⟨terms, hne, hterms, hexpanded⟩ := exists_terms h hread hexpand hthis hsuffixed
  -- the tokens behind the summation
  obtain ⟨-, place', hafter⟩ := h.behind hrest
  obtain ⟨outs, hscans, hrewritten⟩ :=
    hbehind place' inside after rfl hafter hasks' (start' + (sum terms).length)
  have hclean' : ∀ token ∈ after, token.kind ≠ .error := fun token htoken =>
    hclean token (List.mem_append_right _ (List.mem_cons_of_mem _ htoken))
  obtain ⟨opening, new, hopening, hnew, -, hsum⟩ := scans_sum hne hterms place start'
    (hscans.at_boundary (hrewritten.no_error hclean'))
  refine ⟨opening :: new ++ outs, ?_, .sum hread hopening hnew hrewritten⟩
  have hfirst : (operatorToken start c).first = start := rfl
  rw [expansions, List.map_cons, Text.patchFrom, hfirst, Nat.sub_self, List.take_zero,
    List.nil_append, hexpanded]
  exact hsum

/-- **The expanded formula** reads as the formula with its summations rewritten. -/
theorem exists_rewritten {place : Lexer.Place} {source text : Text} {start : Nat}
    {tokens : List Token} (h : Scans place start text tokens) (htext : source.drop start = text)
    (hclean : ∀ token ∈ tokens, token.kind ≠ .error)
    (hfaultless : Faultless config screenings tokens)
    (hasks : ∀ site ∈ sites tokens, site.1.Asks) (hsuffixed : Suffixed screenings)
    (start' : Nat) :
    ∃ outs, Scans place start'
        (Text.patchFrom source start (expansions config screenings (sites tokens))) outs ∧
      Rewritten tokens outs := by
  -- on the length of what is left; a summation takes several tokens at once
  induction hlength : text.length using Nat.strongRecOn
    generalizing place start text tokens start' with
  | ind length ih =>
      subst hlength
      cases h with
      | done =>
          rw [sites, expansions, List.map_nil, Text.patchFrom, htext]
          exact ⟨[], .done, .nil⟩
      | @blank _ _ c rest _ hc h =>
          have hdrop : source.drop start = [c] ++ rest := htext
          have hrest : source.drop (start + 1) = rest := Text.drop_of_drop_eq hdrop
          obtain ⟨outs, hread, hrewritten⟩ :=
            ih _ (Nat.lt_succ_self _) h hrest hclean hfaultless hasks (start' + 1) rfl
          refine ⟨outs, ?_, hrewritten⟩
          rw [Text.patchFrom_of_drop_eq hdrop (start_le_of_mem_expansions h hrest)]
          exact .blank hc hread
      | @sign _ _ c rest tokens hc h =>
          obtain ⟨-, hclean'⟩ := List.forall_mem_cons.mp hclean
          have hdrop : source.drop start = [c] ++ rest := htext
          have hrest : source.drop (start + 1) = rest := Text.drop_of_drop_eq hdrop
          cases hsum : read? (operatorToken start c :: tokens) with
          | none =>
              rw [sites_of_read?_eq_none hsum] at hasks ⊢
              obtain ⟨outs, hread, hrewritten⟩ :=
                ih _ (Nat.lt_succ_self _) h hrest hclean' hfaultless.2 hasks (start' + 1) rfl
              refine ⟨operatorToken start' c :: outs, ?_, .keep rfl rfl hsum hrewritten⟩
              rw [Text.patchFrom_of_drop_eq hdrop (start_le_of_mem_expansions h hrest)]
              exact .sign hc hread
          | some found =>
              obtain ⟨summation, last, faults⟩ := found
              obtain ⟨rfl, hexpand⟩ := hfaultless.1 summation last faults hsum
              refine exists_rewritten_of_read? h hrest hclean' hsum hexpand hasks hsuffixed start' ?_
              rintro place' inside after rfl hafter hasks' start''
              have hclean'' : ∀ token ∈ after, token.kind ≠ .error := fun token htoken =>
                hclean' token (List.mem_append_right _ (List.mem_cons_of_mem _ htoken))
              have hless : (source.drop (last.last + 1)).length < (c :: rest).length := by
                obtain ⟨hbehind, -⟩ := h.behind hrest
                rw [← htext, List.length_drop, List.length_drop]
                have := congrArg List.length htext
                simp only [List.length_drop, List.length_cons] at this
                omega
              exact ih _ hless hafter rfl hclean'' hfaultless.2.append_right.2 hasks' start'' rfl
      | @run _ c kind more rest tokens hc hmore hlongest h =>
          obtain ⟨-, hclean'⟩ := List.forall_mem_cons.mp hclean
          have hrest : source.drop (start + (c :: more).length) = rest :=
            Text.drop_of_drop_eq htext
          obtain ⟨hsign, hkind, hspelled⟩ :=
            runToken_cases kind hc.ne_operator start start' (c :: more)
          rw [sites_cons_of_not_sign hsign] at hasks ⊢
          have hless : rest.length < (c :: more ++ rest).length := by
            rw [List.length_append, List.length_cons]
            omega
          obtain ⟨outs, hread, hrewritten⟩ := ih _ hless h hrest hclean' hfaultless.2 hasks
            (start' + (c :: more).length) rfl
          have hboundary := (hread.of_no_error (hrewritten.no_error hclean')).1
          refine ⟨runToken kind start' (c :: more) :: outs, ?_,
            .keep hkind hspelled (read?_eq_none_of_not_sign hsign tokens) hrewritten⟩
          rw [Text.patchFrom_of_drop_eq htext (start_le_of_mem_expansions h hrest)]
          exact .run hc hmore (hboundary.carriesOn kind) hread
      | error => exact absurd rfl (hclean _ List.mem_cons_self)

/-! ### What it asks for -/

/-- A token that is not the parenthesis of a sum was there before. -/
theorem Rewritten.uncons {tokens outs : List Token} {out : Token}
    (h : Rewritten tokens (out :: outs)) (hout : out.isOperator '(' = false) :
    ∃ token rest, tokens = token :: rest ∧ out.kind = token.kind ∧ out.text = token.text ∧
      Rewritten rest outs := by
  cases h with
  | @keep token _ rest _ hkind htext _ h => exact ⟨token, rest, rfl, hkind, htext, h⟩
  | sum _ hopening =>
      rw [hout] at hopening
      cases hopening

/-- What a sign and a counter make with what stands behind them. -/
theorem read?_of_counter {sign counter : Token}
    (hsign : sign.isOperator Lexer.summationSign = true) (hcounter : counter.isSymbol = true)
    (rest : List Token) :
    read? (sign :: counter :: rest) = some (match rest with
      | opening :: list =>
        if opening.isOperator '(' then readList ⟨counter.text, [], []⟩ .fresh opening list
        else (⟨counter.text, defaultIds, []⟩, counter, [])
      | [] => (⟨counter.text, defaultIds, []⟩, counter, [])) := by
  rw [read?.eq_def]
  dsimp only
  rw [hsign, hcounter]
  cases rest with
  | nil => rfl
  | cons opening list => exact (apply_ite some _ _ _).symm

theorem read?_ne_none {sign counter : Token} (hsign : sign.isOperator Lexer.summationSign = true)
    (hcounter : counter.isSymbol = true) (rest : List Token) :
    read? (sign :: counter :: rest) ≠ none := by
  rw [read?_of_counter hsign hcounter]
  exact Option.some_ne_none _

/-- **No sum is asked for** any more. -/
theorem Rewritten.sites_eq_nil {tokens outs : List Token} (h : Rewritten tokens outs) :
    sites outs = [] := by
  induction h with
  | nil => rfl
  | @keep token out rest outs hkind htext hread h ih =>
      have hnone : read? (out :: outs) = none := by
        refine Option.eq_none_iff_forall_ne_some.mpr fun found hfound => ?_
        obtain ⟨sign, counter, more, houts, hsign, hcounter, -⟩ := read?_inv hfound
        obtain ⟨rfl, rfl⟩ := List.cons.inj houts
        -- sign and counter stood side by side before
        obtain ⟨token', rest', rfl, hkind', -⟩ :=
          h.uncons (Token.not_isOperator_of_isSymbol hcounter '(')
        rw [Token.isOperator_congr hkind htext] at hsign
        rw [Token.isSymbol_congr hkind'] at hcounter
        exact read?_ne_none hsign hcounter rest' hread
      rw [sites_of_read?_eq_none hnone, ih]
  | sum _ _ hnew _ ih =>
      rw [sites_append_of_not_sign (fun token htoken => (hnew token htoken).not_sign), ih]

/-- **No reference is asked for** that was not asked for before. -/
theorem Rewritten.occurrences_eq_nil {tokens outs : List Token} (h : Rewritten tokens outs)
    (hnone : Reference.occurrences tokens = []) : Reference.occurrences outs = [] := by
  induction h with
  | nil => rfl
  | @keep token out rest outs hkind htext _ h ih =>
      obtain ⟨htoken, hrest⟩ := Reference.occurrences_cons_eq_nil hnone
      have hout : Reference.afterHead? (out :: outs) = none := by
        refine Option.eq_none_iff_forall_ne_some.mpr fun path hpath => ?_
        obtain ⟨name, colon, slash, slash', houts, hname, hcolon, hslash, hslash'⟩ :=
          Reference.afterHead?_eq_some hpath
        obtain ⟨rfl, rfl⟩ := List.cons.inj houts
        -- the four tokens of the head stood side by side before
        obtain ⟨colon', rest₁, rfl, hkind₁, htext₁, h₁⟩ :=
          h.uncons (Token.not_isOperator_of_ne hcolon (by decide))
        obtain ⟨slash₁, rest₂, rfl, hkind₂, htext₂, h₂⟩ :=
          h₁.uncons (Token.not_isOperator_of_ne hslash (by decide))
        obtain ⟨slash₂, rest₃, rfl, hkind₃, htext₃, -⟩ :=
          h₂.uncons (Token.not_isOperator_of_ne hslash' (by decide))
        rw [Token.isNamed_congr hkind htext] at hname
        rw [Token.isOperator_congr hkind₁ htext₁] at hcolon
        rw [Token.isOperator_congr hkind₂ htext₂] at hslash
        rw [Token.isOperator_congr hkind₃ htext₃] at hslash'
        rw [Reference.afterHead?_of_head hname hcolon hslash hslash'] at htoken
        cases htoken
      rw [Reference.occurrences_of_afterHead?_eq_none hout, ih hrest]
  | sum _ _ hnew _ ih =>
      obtain ⟨-, hinside⟩ := Reference.occurrences_cons_eq_nil hnone
      obtain ⟨-, hrest⟩ :=
        Reference.occurrences_cons_eq_nil (Reference.occurrences_eq_nil_of_append hinside)
      rw [Reference.occurrences_append_of_not_head
        (fun token htoken => (hnew token htoken).not_head), ih hrest]

end Summation

end CounterFormula
