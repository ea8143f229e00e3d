import CounterFormula.Proofs.Text.Outside
import CounterFormula.Proofs.Token.Class
import CounterFormula.Proofs.Token.Order
import CounterFormula.Summation

/-!
# Summation — Expansion

What `expandAll` does to the rest of a formula.  A *site* is a summation among the tokens of the
formula, with its span: from its sign to the last token that reading it takes.  The list of a
summation may hold the sign of another one; both end at the same closing parenthesis then, or the
inner one, without a list of its own, ends before.

`expandAll` splices at every site, the last one first, at the offsets of the formula as it was.
After a splice in its list the offsets of a summation are stale.

* `laminar_sites`: a site that begins within another one ends within it.
* `differsOnlyAt_expandAll_iff`: the formula stays as it was outside of the summations, whatever
  they expand to, just when behind a summation that holds another one nothing is outside.
-/

namespace CounterFormula.Summation

/-- The summations among `tokens`, each with its span. -/
def sites : List Token → List (Summation × Span)
  | [] => []
  | token :: rest =>
    match read? (token :: rest) with
    | none => sites rest
    | some (summation, last, _) => (summation, ⟨token.first, last.last⟩) :: sites rest

/-- What each of `sites` expands to. -/
def expansions (config : Config) (screenings : Option ScreeningRegistry)
    (sites : List (Summation × Span)) : List (Span × Text) :=
  sites.map fun site => (site.2, (site.1.expand config screenings).1)

theorem fst_expansions (config : Config) (screenings : Option ScreeningRegistry)
    (sites : List (Summation × Span)) :
    (expansions config screenings sites).map Prod.fst = sites.map Prod.snd := by
  rw [expansions, List.map_map]
  rfl

theorem expansions_eq_deletions {config : Config} {screenings : Option ScreeningRegistry}
    (h : ∀ summation : Summation, (summation.expand config screenings).1 = [])
    (sites : List (Summation × Span)) :
    expansions config screenings sites = Text.deletions (sites.map Prod.snd) := by
  rw [expansions, Text.deletions, List.map_map]
  exact List.map_congr_left fun site _ => congrArg (Prod.mk site.2) (h site.1)

/-- `expandAll` splices what the summations expand to, the last one first. -/
theorem expandAll_eq_spliceAll (config : Config) (screenings : Option ScreeningRegistry)
    (source : Text) (tokens : List Token) :
    (expandAll config screenings source tokens).1 =
      Text.spliceAll source (expansions config screenings (sites tokens)) := by
  induction tokens with
  | nil => rfl
  | cons token rest ih =>
      rw [expandAll, sites]
      cases read? (token :: rest) with
      | none => exact ih
      | some found =>
          obtain ⟨summation, last, faults⟩ := found
          exact congrArg (Text.splice · token.first last.last _) ih

/-! ### Where a list ends -/

/-- The token that ends a list: its closing parenthesis, or the last of `tokens` without one;
`last` if there are none. -/
def listEnd (last : Token) : List Token → Token
  | [] => last
  | token :: rest => if token.isOperator ')' then token else listEnd token rest

theorem listEnd_of_not_closing {token : Token} (h : token.isOperator ')' = false) (last : Token)
    (rest : List Token) : listEnd last (token :: rest) = listEnd token rest := by
  rw [listEnd, h]
  rfl

theorem last_readList (summation : Summation) (place : Place) (last : Token)
    (tokens : List Token) : (readList summation place last tokens).2.1 = listEnd last tokens := by
  induction tokens generalizing summation place last with
  | nil => rfl
  | cons token rest ih =>
      rw [readList, listEnd]
      split
      · rfl
      · exact ih _ _ token

theorem listEnd_mem (last : Token) (tokens : List Token) :
    listEnd last tokens ∈ last :: tokens := by
  induction tokens generalizing last with
  | nil => exact List.mem_cons_self
  | cons token rest ih =>
      rw [listEnd]
      split
      · exact List.mem_cons_of_mem _ List.mem_cons_self
      · exact List.mem_cons_of_mem _ (ih token)

/-- A list does not end before it begins. -/
theorem le_last_listEnd {start stop : Nat} {last : Token} {tokens : List Token}
    (h : Span.Laid start stop ((last :: tokens).map Token.span)) :
    last.last ≤ (listEnd last tokens).last := by
  rcases List.mem_cons.mp (listEnd_mem last tokens) with heq | hmem
  · exact Nat.le_of_eq (congrArg Token.last heq.symm)
  · have hmem' := List.mem_map_of_mem (f := Token.span) hmem
    have hafter : last.last + 1 ≤ (listEnd last tokens).first := h.tail.start_le _ hmem'
    have hends : (listEnd last tokens).first ≤ (listEnd last tokens).last :=
      h.tail.first_le_last _ hmem'
    omega

/-- A summation is a sign and a counter, and with a list what reading the list gives. -/
theorem read?_inv {tokens : List Token} {found : Summation × Token × List SummationFault}
    (h : read? tokens = some found) :
    ∃ sign counter rest, tokens = sign :: counter :: rest ∧
      sign.isOperator Lexer.summationSign = true ∧ counter.isSymbol = true ∧
      (found = (⟨counter.text, defaultIds, []⟩, counter, []) ∨
        ∃ opening list, rest = opening :: list ∧ opening.isOperator '(' = true ∧
          found = readList ⟨counter.text, [], []⟩ .fresh opening list) := by
  rw [read?.eq_def] at h
  split at h
  · rename_i sign counter rest
    split at h
    · rename_i hhead
      obtain ⟨hsign, hcounter⟩ := Bool.and_eq_true_iff.mp hhead
      refine ⟨sign, counter, rest, rfl, hsign, hcounter, ?_⟩
      split at h
      · rename_i opening list
        split at h
        · rename_i hopening
          exact .inr ⟨opening, list, rfl, hopening, (Option.some.inj h).symm⟩
        · exact .inl (Option.some.inj h).symm
      · exact .inl (Option.some.inj h).symm
    · cases h
  · cases h

/-- A summation with a list extends to the list's end. -/
theorem read?_eq_some {tokens : List Token} {summation : Summation} {last : Token}
    {faults : List SummationFault} (h : read? tokens = some (summation, last, faults)) :
    ∃ sign counter rest, tokens = sign :: counter :: rest ∧
      sign.isOperator Lexer.summationSign = true ∧ counter.isSymbol = true ∧
      (last = counter ∨ ∃ opening list, rest = opening :: list ∧
        opening.isOperator '(' = true ∧ last = listEnd opening list) := by
  obtain ⟨sign, counter, rest, htokens, hsign, hcounter, hfound⟩ := read?_inv h
  refine ⟨sign, counter, rest, htokens, hsign, hcounter, ?_⟩
  rcases hfound with hfound | ⟨opening, list, hrest, hopening, hfound⟩
  · exact .inl (congrArg (·.2.1) hfound)
  · refine .inr ⟨opening, list, hrest, hopening, ?_⟩
    rw [← last_readList ⟨counter.text, [], []⟩ .fresh opening list, ← hfound]

/-- A summation does not extend beyond the first closing parenthesis after its sign. -/
theorem last_le_of_read? {start stop : Nat} {token last : Token} {rest : List Token}
    {summation : Summation} {faults : List SummationFault}
    (h : Span.Laid start stop ((token :: rest).map Token.span))
    (hread : read? (token :: rest) = some (summation, last, faults)) :
    last.last ≤ (listEnd token rest).last := by
  obtain ⟨sign, counter, more, htokens, -, hcounter, hlast⟩ := read?_eq_some hread
  obtain ⟨rfl, rfl⟩ := List.cons.inj htokens
  -- neither the counter nor the opening of its list is a closing parenthesis
  rw [listEnd_of_not_closing (Token.not_isOperator_of_isSymbol hcounter _)]
  rcases hlast with rfl | ⟨opening, list, rfl, hopening, rfl⟩
  · exact le_last_listEnd h.tail
  · have hends : listEnd counter (opening :: list) = listEnd opening list :=
      listEnd_of_not_closing (Token.not_isOperator_of_ne hopening (by decide)) counter list
    exact Nat.le_of_eq (congrArg Token.last hends.symm)

/-! ### Where the summations lie -/

theorem sites_cons_of_not_sign {token : Token}
    (h : token.isOperator Lexer.summationSign = false) (rest : List Token) :
    sites (token :: rest) = sites rest := by
  rw [sites]
  cases hread : read? (token :: rest) with
  | none => rfl
  | some found =>
      obtain ⟨sign, _, _, htokens, hsign, -⟩ := read?_eq_some hread
      obtain ⟨rfl, -⟩ := List.cons.inj htokens
      rw [h] at hsign
      cases hsign

theorem sites_cons_cons_of_read? {token counter last : Token} {more : List Token}
    {summation : Summation} {faults : List SummationFault} (hcounter : counter.isSymbol = true)
    (hread : read? (token :: counter :: more) = some (summation, last, faults)) :
    sites (token :: counter :: more) =
      (summation, ⟨token.first, last.last⟩) :: sites more := by
  rw [sites, hread, sites_cons_of_not_sign (Token.not_isOperator_of_isSymbol hcounter _)]

theorem exists_first_eq_of_mem_sites {tokens : List Token} {site : Summation × Span}
    (h : site ∈ sites tokens) : ∃ token ∈ tokens, site.2.first = token.first := by
  induction tokens with
  | nil => cases h
  | cons token rest ih =>
      rw [sites] at h
      split at h
      · obtain ⟨found, hfound, hfirst⟩ := ih h
        exact ⟨found, List.mem_cons_of_mem _ hfound, hfirst⟩
      · rcases List.mem_cons.mp h with rfl | h
        · exact ⟨token, List.mem_cons_self, rfl⟩
        · obtain ⟨found, hfound, hfirst⟩ := ih h
          exact ⟨found, List.mem_cons_of_mem _ hfound, hfirst⟩

/-- Where the tokens begin, or later. -/
theorem start_le_of_mem_sites {start stop : Nat} {tokens : List Token} {site : Summation × Span}
    (h : Span.Laid start stop (tokens.map Token.span)) (hsite : site ∈ sites tokens) :
    start ≤ site.2.first := by
  obtain ⟨token, htoken, hfirst⟩ := exists_first_eq_of_mem_sites hsite
  rw [hfirst]
  exact h.start_le token.span (List.mem_map_of_mem htoken)

/-- A summation that begins within a list ends within it. -/
theorem last_le_listEnd_of_mem_sites {start stop : Nat} {last : Token} {list : List Token}
    {site : Summation × Span} (h : Span.Laid start stop ((last :: list).map Token.span))
    (hsite : site ∈ sites list) (hfirst : site.2.first ≤ (listEnd last list).last) :
    site.2.last ≤ (listEnd last list).last := by
  induction list generalizing start last with
  | nil => cases hsite
  | cons token rest ih =>
      by_cases hclosing : token.isOperator ')' = true
      · -- the list ends here, and `site` begins behind it
        rw [sites_cons_of_not_sign (Token.not_isOperator_of_ne hclosing (by decide))] at hsite
        rw [listEnd, if_pos hclosing] at hfirst
        have hbehind : token.last + 1 ≤ site.2.first := start_le_of_mem_sites h.tail.tail hsite
        omega
      · rw [listEnd, if_neg hclosing] at hfirst ⊢
        rw [sites] at hsite
        split at hsite
        · exact ih h.tail hsite hfirst
        · rename_i summation last' faults hread
          rcases List.mem_cons.mp hsite with rfl | hsite
          · exact last_le_of_read? h.tail hread
          · exact ih h.tail hsite hfirst

/-- **Nesting.**  A summation that begins within another one ends within it. -/
theorem laminar_sites {start stop : Nat} {tokens : List Token}
    (h : Span.Laid start stop (tokens.map Token.span)) :
    Span.Laminar stop ((sites tokens).map Prod.snd) := by
  induction tokens generalizing start with
  | nil => exact .nil
  | cons token rest ih =>
      cases hread : read? (token :: rest) with
      | none =>
          rw [sites, hread]
          exact ih h.tail
      | some found =>
          obtain ⟨summation, last, faults⟩ := found
          obtain ⟨sign, counter, more, htokens, -, hcounter, hlast⟩ := read?_eq_some hread
          obtain ⟨rfl, rfl⟩ := List.cons.inj htokens
          -- no summation begins at the counter
          have hrest := ih h.tail
          rw [sites_cons_of_not_sign (Token.not_isOperator_of_isSymbol hcounter _)] at hrest
          rw [sites_cons_cons_of_read? hcounter hread, List.map_cons]
          have hmem : last ∈ counter :: more := by
            rcases hlast with rfl | ⟨opening, list, rfl, -, rfl⟩
            · exact List.mem_cons_self
            · exact List.mem_cons_of_mem _ (listEnd_mem opening list)
          have hmem' : last.span ∈ (counter :: more).map Token.span := List.mem_map_of_mem hmem
          have hspan : token.first ≤ last.last := by
            have := h.first_le_last token.span List.mem_cons_self
            have := h.tail.start_le last.span hmem'
            have := h.tail.first_le_last last.span hmem'
            simp only [Token.span] at *
            omega
          refine .cons hspan (h.tail.lt_stop last.span hmem') ?_ ?_ hrest
          · intro span hspan
            obtain ⟨site, hsite, rfl⟩ := List.mem_map.mp hspan
            have := start_le_of_mem_sites h.tail.tail hsite
            have := h.tail.start_le counter.span List.mem_cons_self
            have := h.tail.first_le_last counter.span List.mem_cons_self
            have := h.first_le_last token.span List.mem_cons_self
            simp only [Token.span] at *
            omega
          · intro span hspan hwithin
            obtain ⟨site, hsite, rfl⟩ := List.mem_map.mp hspan
            rcases hlast with rfl | ⟨opening, list, rfl, hopening, rfl⟩
            · -- without a list there is nothing within
              exact absurd (start_le_of_mem_sites h.tail.tail hsite) (Nat.not_le.mpr
                (Nat.lt_succ_of_le hwithin))
            · rw [sites_cons_of_not_sign (Token.not_isOperator_of_ne hopening (by decide))] at hsite
              exact last_le_listEnd_of_mem_sites h.tail.tail hsite hwithin

/-! ### Outside of the summations -/

theorem differsOnlyAt_expandAll {mode : Mode} {source : Text} (config : Config)
    (screenings : Option ScreeningRegistry)
    (hend : Span.NestedAtEnd source.length ((sites (lex mode source).body).map Prod.snd)) :
    Text.DiffersOnlyAt (Span.outermost ((sites (lex mode source).body).map Prod.snd)) source
      (expandAll config screenings source (lex mode source).body).1 := by
  rw [expandAll_eq_spliceAll]
  exact Text.differsOnlyAt_spliceAll (fst_expansions config screenings _)
    (laminar_sites (laid_span_body mode source)) hend

/-- When all summations expand to nothing, each that holds another one takes along some of what
is behind it. -/
theorem nestedAtEnd_of_outside_sublist {mode : Mode} {source : Text} {config : Config}
    {screenings : Option ScreeningRegistry}
    (hnothing : ∀ summation : Summation, (summation.expand config screenings).1 = [])
    (hkeeps : (source.outside (Span.outermost ((sites (lex mode source).body).map Prod.snd))).Sublist
      (expandAll config screenings source (lex mode source).body).1) :
    Span.NestedAtEnd source.length ((sites (lex mode source).body).map Prod.snd) := by
  have hlength := hkeeps.length_le
  rw [expandAll_eq_spliceAll, expansions_eq_deletions hnothing] at hlength
  by_cases hend : Span.NestedAtEnd source.length ((sites (lex mode source).body).map Prod.snd)
  · exact hend
  · exact absurd (Text.length_spliceAll_deletions_lt
      (laminar_sites (laid_span_body mode source)) hend) (Nat.not_lt.mpr hlength)

/-- **Outside of the summations** a formula stays as it was, whatever the registry, just when
behind a summation that holds another one nothing is outside.  Already that all of the outside is
still there, in its order, needs as much; and without a registry it is the same.  When no
summation holds another one, the expansions take the places of the summations, all at once. -/
theorem differsOnlyAt_expandAll_iff (mode : Mode) (config : Config) (source : Text) :
    let tokens := (lex mode source).body
    let spans := (sites tokens).map Prod.snd
    ((∀ registry, Text.DiffersOnlyAt (Span.outermost spans) source
        (expandAll config (some registry) source tokens).1) ↔
      Span.NestedAtEnd source.length spans) ∧
    ((∀ registry, (source.outside (Span.outermost spans)).Sublist
        (expandAll config (some registry) source tokens).1) ↔
      Span.NestedAtEnd source.length spans) ∧
    (Text.DiffersOnlyAt (Span.outermost spans) source (expandAll config none source tokens).1 ↔
      Span.NestedAtEnd source.length spans) ∧
    ((∀ outer ∈ spans, ∀ inner ∈ spans, ¬ outer.Holds inner) →
      ∀ screenings, (expandAll config screenings source tokens).1 =
        source.patch (expansions config screenings (sites tokens))) := by
  intro tokens spans
  refine ⟨⟨?_, ?_⟩, ⟨?_, ?_⟩, ⟨?_, ?_⟩, ?_⟩
  · intro hkeeps
    exact nestedAtEnd_of_outside_sublist (fun _ => rfl) (hkeeps .empty).outside_sublist
  · intro hend registry
    exact differsOnlyAt_expandAll config (some registry) hend
  · intro hkeeps
    exact nestedAtEnd_of_outside_sublist (fun _ => rfl) (hkeeps .empty)
  · intro hend registry
    exact (differsOnlyAt_expandAll config (some registry) hend).outside_sublist
  · intro hkeeps
    exact nestedAtEnd_of_outside_sublist (fun _ => rfl) hkeeps.outside_sublist
  · intro hend
    exact differsOnlyAt_expandAll config none hend
  · intro hflat screenings
    rw [expandAll_eq_spliceAll]
    refine Text.spliceAll_eq_patch ?_
    rw [fst_expansions]
    exact (laminar_sites (laid_span_body mode source)).laid_of_not_holds hflat

/-- The sum over `A` takes the plus sign behind it along: when it is spliced in, the list that it
replaces is shorter by the summation that it held. -/
theorem not_outside_sublist_expandAll_nested :
    let config : Config := { Config.default with release := ['R', '1'], version := .unversioned }
    let registry : ScreeningRegistry := ⟨[⟨['A'], ['R', '1'], none, 0, ['B']⟩]⟩
    let source : Text := "~A(~B) + C".toList
    let tokens := (lex .strict source).body
    let outside := source.outside (Span.outermost ((sites tokens).map Prod.snd))
    outside = " + C".toList ∧
      (expandAll config (some registry) source tokens).1 = "(A.B) C".toList ∧
      ¬ outside.Sublist (expandAll config (some registry) source tokens).1 := by
  intro config registry source tokens outside
  refine ⟨by decide, by decide, ?_⟩
  intro hkeeps
  exact absurd hkeeps (by decide)

end CounterFormula.Summation
