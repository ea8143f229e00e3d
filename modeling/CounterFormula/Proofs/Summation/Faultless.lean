import CounterFormula.Proofs.Summation.Expansion

/-!
# Summation — Faultless

Summations that are read and expanded without a fault.  The list of such a summation is closed and
holds no other summation, so its span ends before the next one begins, and the expansions take
the places of the summations all at once.  It expands to a sum with at least one term, provided
that it asks for something: an empty list is no fault, and expands to nothing.

* `expandAll_eq_patch`: without a fault all summations are replaced at once.
* `expand_faultless`: what a summation that asks for something is replaced with.
-/

namespace CounterFormula.Summation

variable {config : Config} {screenings : Option ScreeningRegistry} {summation : Summation}
  {place : Place} {token last : Token} {tokens rest : List Token}

/-- No summation among `tokens` is read or expanded with a fault. -/
def Faultless (config : Config) (screenings : Option ScreeningRegistry) : List Token → Prop
  | [] => True
  | token :: rest =>
    (∀ summation last faults, read? (token :: rest) = some (summation, last, faults) →
      faults = [] ∧ (summation.expand config screenings).2 = []) ∧
    Faultless config screenings rest

/-- The summation asks for a screening, by id or by name. -/
def Asks (summation : Summation) : Prop :=
  summation.ids ≠ [] ∨ summation.names ≠ []

theorem faultless_of_expandAll {source : Text}
    (h : (expandAll config screenings source tokens).2 = []) :
    Faultless config screenings tokens := by
  induction tokens with
  | nil => trivial
  | cons token rest ih =>
      rw [expandAll] at h
      cases hread : read? (token :: rest) with
      | none =>
          rw [hread] at h
          refine ⟨fun summation last faults hsome => ?_, ih h⟩
          cases hread.symm.trans hsome
      | some found =>
          obtain ⟨summation, last, faults⟩ := found
          simp only [hread, List.append_eq_nil_iff] at h
          obtain ⟨⟨hrest, hfaults⟩, hexpand⟩ := h
          refine ⟨fun summation' last' faults' hsome => ?_, ih hrest⟩
          obtain ⟨rfl, hfound⟩ := Prod.mk.inj (Option.some.inj (hread.symm.trans hsome))
          obtain ⟨-, rfl⟩ := Prod.mk.inj hfound
          exact ⟨hfaults, hexpand⟩

theorem Faultless.append_right {before : List Token}
    (h : Faultless config screenings (before ++ rest)) : Faultless config screenings rest := by
  induction before with
  | nil => exact h
  | cons token before ih => exact ih h.2

/-! ### Reading -/

/-- A sign has no place in a list. -/
theorem not_sign_of_readToken (h : (readToken summation place token).faults = []) :
    token.isOperator Lexer.summationSign = false := by
  refine Bool.eq_false_iff.mpr fun hsign => ?_
  have hhyphen : token.isOperator '-' = false := Token.not_isOperator_of_ne hsign (by decide)
  have hcomma : token.isOperator ',' = false := Token.not_isOperator_of_ne hsign (by decide)
  rw [readToken, (Token.kind_of_isOperator hsign).1] at h
  simp only [hhyphen, hcomma, Bool.false_eq_true, if_false, List.cons_ne_nil] at h

theorem readList_faultless (h : (readList summation place last tokens).2.2 = []) :
    ∃ inside rest, tokens = inside ++ (readList summation place last tokens).2.1 :: rest ∧
      (readList summation place last tokens).2.1.isOperator ')' = true ∧
      ∀ token ∈ inside, token.isOperator Lexer.summationSign = false := by
  induction tokens generalizing summation place last with
  | nil => cases h
  | cons token more ih =>
      rw [readList] at h ⊢
      by_cases hclosing : token.isOperator ')' = true
      · rw [if_pos hclosing]
        exact ⟨[], more, rfl, hclosing, List.forall_mem_nil _⟩
      · rw [if_neg hclosing] at h ⊢
        obtain ⟨hstep, hlist⟩ := List.append_eq_nil_iff.mp h
        obtain ⟨inside, rest, hmore, hlast, hinside⟩ := ih hlist
        refine ⟨token :: inside, rest, congrArg (token :: ·) hmore, hlast, ?_⟩
        exact List.forall_mem_cons.mpr ⟨not_sign_of_readToken hstep, hinside⟩

/-- **Within a summation** that is read without a fault there is no other one. -/
theorem read?_faultless (h : read? (token :: tokens) = some (summation, last, [])) :
    ∃ inside rest, tokens = inside ++ last :: rest ∧
      (∀ token ∈ inside, token.isOperator Lexer.summationSign = false) ∧
      last.isOperator Lexer.summationSign = false := by
  obtain ⟨sign, counter, more, htokens, -, hcounter, hfound⟩ := read?_inv h
  obtain ⟨rfl, rfl⟩ := List.cons.inj htokens
  have hcounter' := Token.not_isOperator_of_isSymbol hcounter Lexer.summationSign
  rcases hfound with hfound | ⟨opening, list, rfl, hopening, hfound⟩
  · obtain rfl : last = counter := congrArg (·.2.1) hfound
    exact ⟨[], more, rfl, List.forall_mem_nil _, hcounter'⟩
  · have hlist : (readList ⟨counter.text, [], []⟩ .fresh opening list).2.2 = [] := by rw [← hfound]
    obtain ⟨inside, rest, hrest, hclosing, hinside⟩ := readList_faultless hlist
    rw [← hfound] at hrest hclosing
    refine ⟨counter :: opening :: inside, rest, by rw [hrest]; rfl, ?_,
      Token.not_isOperator_of_ne hclosing (by decide)⟩
    exact List.forall_mem_cons.mpr ⟨hcounter', List.forall_mem_cons.mpr
      ⟨Token.not_isOperator_of_ne hopening (by decide), hinside⟩⟩

section

variable {P : Summation → Prop} (hid : ∀ summation id, P summation → P (summation.addId id))
  (hname : ∀ summation name, P summation → P (summation.addName name))

include hid

theorem addIds_keeps (h : P summation) (first : Int) (count : Nat) :
    P (summation.addIds first count) := by
  induction count generalizing summation first with
  | zero => exact h
  | succ count ih => exact ih (hid summation first h) (first + 1)

theorem readNumber_keeps (h : P summation) (id : Int) (place : Place) :
    P (readNumber summation id place).summation := by
  cases place with
  | fresh | afterId _ => exact h
  | inRange first =>
      rw [readNumber]
      split
      · exact h
      · split
        · exact h
        · exact addIds_keeps hid h first _

include hname

theorem readToken_keeps (h : P summation) (place : Place) (token : Token) :
    P (readToken summation place token).summation := by
  rw [readToken]
  split
  · split
    · exact readNumber_keeps hid h _ place
    · exact h
  · split
    · cases place <;> exact h
    · split
      · cases place with
        | afterId id => exact hid summation id h
        | fresh | inRange _ => exact h
      · exact h
  · exact hname summation token.text h
  all_goals exact h

/-- What adding ids and names keeps, reading a list keeps. -/
theorem readList_keeps (h : P summation) (place : Place) (last : Token) (tokens : List Token) :
    P (readList summation place last tokens).1 := by
  induction tokens generalizing summation place last with
  | nil => exact h
  | cons token more ih =>
      rw [readList]
      split
      · cases place with
        | afterId id => exact hid summation id h
        | fresh | inRange _ => exact h
      · exact ih (readToken_keeps hid hname h place token) _ token

end

theorem counter_addName (summation : Summation) (name : Text) :
    (summation.addName name).counter = summation.counter := by
  rw [addName]
  split <;> rfl

theorem counter_readList (summation : Summation) (place : Place) (last : Token)
    (tokens : List Token) :
    (readList summation place last tokens).1.counter = summation.counter :=
  readList_keeps (P := fun read => read.counter = summation.counter) (fun _ _ h => h)
    (fun read name h => (counter_addName read name).trans h) rfl place last tokens

/-- The counter of a summation is the symbol behind its sign. -/
theorem counter_of_read? {faults : List SummationFault}
    (h : read? (token :: tokens) = some (summation, last, faults)) :
    ∃ counter ∈ tokens, counter.isSymbol = true ∧ summation.counter = counter.text := by
  obtain ⟨sign, counter, more, htokens, -, hcounter, hfound⟩ := read?_inv h
  obtain ⟨rfl, rfl⟩ := List.cons.inj htokens
  refine ⟨counter, List.mem_cons_self, hcounter, ?_⟩
  rcases hfound with hfound | ⟨opening, list, -, -, hfound⟩
  · exact congrArg (·.1.counter) hfound
  · have hcounter := counter_readList ⟨counter.text, [], []⟩ .fresh opening list
    rwa [← hfound] at hcounter

theorem exists_counter_of_mem_sites {site : Summation × Span} (h : site ∈ sites tokens) :
    ∃ counter ∈ tokens, counter.isSymbol = true ∧ site.1.counter = counter.text := by
  induction tokens with
  | nil => cases h
  | cons token rest ih =>
      have hfurther (hrest : site ∈ sites rest) :
          ∃ counter ∈ token :: rest, counter.isSymbol = true ∧ site.1.counter = counter.text := by
        obtain ⟨counter, hcounter, hspelled⟩ := ih hrest
        exact ⟨counter, List.mem_cons_of_mem _ hcounter, hspelled⟩
      rw [sites] at h
      split at h
      · exact hfurther h
      · rename_i hread
        rcases List.mem_cons.mp h with rfl | h
        · obtain ⟨counter, hcounter, hspelled⟩ := counter_of_read? hread
          exact ⟨counter, List.mem_cons_of_mem _ hcounter, hspelled⟩
        · exact hfurther h

/-! ### Where the summations lie -/

theorem sites_append_of_not_sign {before : List Token}
    (h : ∀ token ∈ before, token.isOperator Lexer.summationSign = false) (rest : List Token) :
    sites (before ++ rest) = sites rest := by
  induction before with
  | nil => rfl
  | cons token before ih =>
      obtain ⟨htoken, hbefore⟩ := List.forall_mem_cons.mp h
      rw [List.cons_append, sites_cons_of_not_sign htoken, ih hbefore]

/-- The summations behind one that is read without a fault are those behind its end. -/
theorem sites_of_read? {inside : List Token}
    (h : read? (token :: (inside ++ last :: rest)) = some (summation, last, []))
    (hinside : ∀ token ∈ inside, token.isOperator Lexer.summationSign = false)
    (hlast : last.isOperator Lexer.summationSign = false) :
    sites (token :: (inside ++ last :: rest)) =
      (summation, ⟨token.first, last.last⟩) :: sites rest := by
  rw [sites, h, sites_append_of_not_sign hinside, sites_cons_of_not_sign hlast]

theorem sites_of_read?_eq_none (h : read? (token :: rest) = none) :
    sites (token :: rest) = sites rest := by
  rw [sites, h]

/-- Summations without a fault lie one after the other. -/
theorem laid_sites {start stop : Nat} (hfaultless : Faultless config screenings tokens)
    (h : Span.Laid start stop (tokens.map Token.span)) :
    Span.Laid start stop ((sites tokens).map Prod.snd) := by
  -- behind a summation there are fewer tokens
  induction hlength : tokens.length using Nat.strongRecOn generalizing start tokens with
  | ind length ih =>
      subst hlength
      cases tokens with
      | nil => exact .nil
      | cons token more =>
          cases hread : read? (token :: more) with
          | none =>
              have hmore := ih _ (Nat.lt_succ_self _) hfaultless.2 h.tail rfl
              rw [sites_of_read?_eq_none hread]
              refine hmore.of_start_le fun span hspan => ?_
              have hbehind : token.last + 1 ≤ span.first := hmore.start_le span hspan
              have hfirst : start ≤ token.first := h.start_le _ List.mem_cons_self
              have hlast : token.first ≤ token.last := h.first_le_last _ List.mem_cons_self
              omega
          | some found =>
              obtain ⟨summation, last, faults⟩ := found
              obtain ⟨rfl, -⟩ := hfaultless.1 summation last faults hread
              obtain ⟨inside, rest, rfl, hinside, hlast⟩ := read?_faultless hread
              have hspans : (token :: (inside ++ last :: rest)).map Token.span =
                  token.span :: (inside.map Token.span ++ last.span :: rest.map Token.span) := by
                simp only [List.map_cons, List.map_append]
              rw [hspans] at h
              have hjoin := h.join
              have hless : rest.length < (token :: (inside ++ last :: rest)).length := by
                rw [List.length_cons, List.length_append, List.length_cons]
                omega
              have hrest := ih _ hless hfaultless.2.append_right.2 hjoin.tail rfl
              rw [sites_of_read? hread hinside hlast]
              exact .cons (hjoin.first_le_last _ List.mem_cons_self)
                (hjoin.start_le _ List.mem_cons_self) (hjoin.lt_stop _ List.mem_cons_self) hrest

/-- **Without a fault** all summations are replaced at once. -/
theorem expandAll_eq_patch {mode : Mode} {source : Text}
    (h : Faultless config screenings (lex mode source).body) :
    (expandAll config screenings source (lex mode source).body).1 =
      source.patch (expansions config screenings (sites (lex mode source).body)) := by
  rw [expandAll_eq_spliceAll]
  refine Text.spliceAll_eq_patch ?_
  rw [fst_expansions]
  exact laid_sites h (laid_span_body mode source)

/-! ### What they expand to -/

/-- What is asked for and not unknown is the id, or the name, of some row. -/
theorem exists_row {α : Type} [BEq α] [LawfulBEq α] (key : Screening → α) {asked : List α}
    {wanted : α} {rows : List Screening}
    (h : (asked.filter fun a => rows.all fun row => key row != a) = [])
    (hwanted : wanted ∈ asked) : ∃ row ∈ rows, key row = wanted := by
  have hknown := Bool.eq_false_iff.mpr (List.filter_eq_nil_iff.mp h wanted hwanted)
  obtain ⟨row, hrow, hkey⟩ := List.all_eq_false.mp hknown
  exact ⟨row, hrow, by simpa using hkey⟩

theorem exists_selected {rows : List Screening} (hasks : summation.Asks)
    (hids : summation.unknownIds rows = []) (hnames : summation.unknownNames rows = []) :
    ∃ row ∈ rows, summation.selects row = true := by
  rcases hasks with hasks | hasks
  · obtain ⟨id, hid⟩ := List.exists_mem_of_ne_nil _ hasks
    obtain ⟨row, hrow, rfl⟩ := exists_row Screening.id hids hid
    refine ⟨row, hrow, ?_⟩
    rw [selects, List.contains_iff_mem.mpr hid, Bool.true_or]
  · obtain ⟨name, hname⟩ := List.exists_mem_of_ne_nil _ hasks
    obtain ⟨row, hrow, rfl⟩ := exists_row Screening.suffix hnames hname
    refine ⟨row, hrow, ?_⟩
    rw [selects, List.contains_iff_mem.mpr hname, Bool.or_true]

theorem eq_nil_of_fault {α : Type} {unknown : List α} {fault : SummationFault}
    (h : (if unknown.isEmpty then [] else [fault]) = []) : unknown = [] := by
  cases unknown with
  | nil => rfl
  | cons _ _ => cases h

/-- **A summation that asks for something** expands to the sum of its screenings, of which there
is at least one. -/
theorem expand_faultless (h : (summation.expand config screenings).2 = [])
    (hasks : summation.Asks) :
    ∃ registry rows, screenings = some registry ∧ rows ≠ [] ∧ (∀ row ∈ rows, row ∈ registry.rows) ∧
      (summation.expand config screenings).1 = sum (rows.map summation.term) := by
  cases screenings with
  | none => cases h
  | some registry =>
      rw [expand] at h ⊢
      generalize hrows : registry.query summation.counter config.release _ = rows at h ⊢
      by_cases hempty : rows.isEmpty = true
      · simp [hempty] at h
      · simp only [if_neg hempty, List.append_eq_nil_iff] at h ⊢
        obtain ⟨row, hrow, hselects⟩ :=
          exists_selected hasks (eq_nil_of_fault h.1) (eq_nil_of_fault h.2)
        refine ⟨registry, rows.filter summation.selects, rfl, ?_, fun found hfound => ?_, rfl⟩
        · exact List.ne_nil_of_mem (List.mem_filter.mpr ⟨hrow, hselects⟩)
        · have hquery := (List.mem_filter.mp hfound).1
          rw [← hrows] at hquery
          exact (List.mem_filter.mp hquery).1

end CounterFormula.Summation
