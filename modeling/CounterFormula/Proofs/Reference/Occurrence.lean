import CounterFormula.Proofs.Reference.Grammar

/-!
# Reference — Occurrence

Where references occur among the tokens of a formula, as they are found from the left: a head is
read with what follows it.

* `mem_occurrences_iff`: what is found is just what occurs by the grammar.
* `laid_span_occurrences`: the occurrences of a formula lie in it one after the other, so no two
  of them overlap.  A KPI may be called like the head itself, and a malformed reference may be
  directly followed by a well-formed one.
-/

namespace CounterFormula.Reference

/-- What is made of a head, from `name` to `slash`, that `path` follows. -/
def Occurrence.ofPath (name slash : Token) (path : List Token) : Occurrence :=
  match readPath path with
  | .ok (reference, last) => .wellFormed reference ⟨name.first, last.last⟩
  | .error fault => .malformed fault ⟨name.first, slash.last⟩

/-- The occurrence that `tokens` begin with. -/
def occurrence? (tokens : List Token) : Option Occurrence :=
  match tokens with
  | name :: _ :: _ :: slash :: _ => (afterHead? tokens).map (Occurrence.ofPath name slash)
  | _ => none

/-- The occurrences among `tokens`, in their order. -/
def occurrences : List Token → List Occurrence
  | [] => []
  | token :: rest => (occurrence? (token :: rest)).toList ++ occurrences rest

theorem afterHead?_eq_some {tokens path : List Token} (h : afterHead? tokens = some path) :
    ∃ name colon slash slash', tokens = name :: colon :: slash :: slash' :: path ∧
      name.isNamed head = true ∧ colon.isOperator ':' = true ∧ slash.isOperator '/' = true ∧
      slash'.isOperator '/' = true := by
  unfold afterHead? at h
  split at h
  · rename_i name colon slash slash' rest
    split at h
    · rename_i hhead
      simp only [Bool.and_eq_true] at hhead
      obtain ⟨⟨⟨hname, hcolon⟩, hslash⟩, hslash'⟩ := hhead
      obtain rfl := Option.some.inj h
      exact ⟨name, colon, slash, slash', rfl, hname, hcolon, hslash, hslash'⟩
    · cases h
  · cases h

theorem afterHead?_of_head {name colon slash slash' : Token} (hname : name.isNamed head = true)
    (hcolon : colon.isOperator ':' = true) (hslash : slash.isOperator '/' = true)
    (hslash' : slash'.isOperator '/' = true) (path : List Token) :
    afterHead? (name :: colon :: slash :: slash' :: path) = some path := by
  rw [afterHead?, hname, hcolon, hslash, hslash']
  rfl

theorem occurrence?_of_afterHead? {name colon slash slash' : Token} {path : List Token}
    (h : afterHead? (name :: colon :: slash :: slash' :: path) = some path) :
    occurrence? (name :: colon :: slash :: slash' :: path) =
      some (Occurrence.ofPath name slash' path) := by
  simp only [occurrence?, h, Option.map_some]

theorem occurrence?_eq_none {tokens : List Token} (h : afterHead? tokens = none) :
    occurrence? tokens = none := by
  unfold occurrence?
  split
  · rw [h, Option.map_none]
  · rfl

/-! ### Tokens that begin no occurrence -/

theorem occurrences_cons_of_not_head {token : Token} (h : token.isNamed head = false)
    (rest : List Token) : occurrences (token :: rest) = occurrences rest := by
  have hnone : afterHead? (token :: rest) = none := by
    refine Option.eq_none_iff_forall_ne_some.mpr fun path hpath => ?_
    obtain ⟨name, _, _, _, htokens, hname, -⟩ := afterHead?_eq_some hpath
    obtain ⟨rfl, -⟩ := List.cons.inj htokens
    rw [h] at hname
    cases hname
  rw [occurrences, occurrence?_eq_none hnone, Option.toList_none, List.nil_append]

/-- A symbol begins no occurrence before another sign than a colon, however it is spelled. -/
theorem occurrences_cons_of_not_colon {token next : Token} (h : next.isOperator ':' = false)
    (rest : List Token) : occurrences (token :: next :: rest) = occurrences (next :: rest) := by
  have hnone : afterHead? (token :: next :: rest) = none := by
    refine Option.eq_none_iff_forall_ne_some.mpr fun path hpath => ?_
    obtain ⟨_, colon, _, _, htokens, -, hcolon, -⟩ := afterHead?_eq_some hpath
    obtain ⟨-, hnext⟩ := List.cons.inj htokens
    obtain ⟨rfl, -⟩ := List.cons.inj hnext
    rw [h] at hcolon
    cases hcolon
  rw [occurrences, occurrence?_eq_none hnone, Option.toList_none, List.nil_append]

/-- No occurrence begins within a well-formed path, not even at a KPI's id that is spelled like
a head: what follows the id is not a colon. -/
theorem Spelled.occurrences_eq {path rest : List Token} {reference : Reference} {last : Token}
    (h : Spelled path reference last rest) : occurrences path = occurrences rest := by
  cases h with
  | formula hsort hslash hkpi hclosing =>
      rw [occurrences_cons_of_not_head (Token.not_isNamed_of_ne hsort (by decide)),
        occurrences_cons_of_not_head (Token.not_isNamed_of_isOperator hslash head),
        occurrences_cons_of_not_colon (Token.not_isOperator_of_ne hclosing (by decide))]
  | value hsort hslash hkpi hslash' hname hclosing =>
      rw [occurrences_cons_of_not_head (Token.not_isNamed_of_ne hsort (by decide)),
        occurrences_cons_of_not_head (Token.not_isNamed_of_isOperator hslash head),
        occurrences_cons_of_not_colon (Token.not_isOperator_of_ne hslash' (by decide)),
        occurrences_cons_of_not_head (Token.not_isNamed_of_isOperator hslash' head),
        occurrences_cons_of_not_head (Token.not_isNamed_of_isVariable hname head)]

/-! ### Order -/

/-- No occurrence begins within a head. -/
theorem occurrences_afterHead {name colon slash slash' : Token} {path : List Token}
    (h : afterHead? (name :: colon :: slash :: slash' :: path) = some path) :
    occurrences (colon :: slash :: slash' :: path) = occurrences path := by
  obtain ⟨_, _, _, _, htokens, -, hcolon, hslash, hslash'⟩ := afterHead?_eq_some h
  simp only [List.cons.injEq] at htokens
  obtain ⟨rfl, rfl, rfl, rfl, -⟩ := htokens
  rw [occurrences_cons_of_not_head (Token.not_isNamed_of_isOperator hcolon head),
    occurrences_cons_of_not_head (Token.not_isNamed_of_isOperator hslash head),
    occurrences_cons_of_not_head (Token.not_isNamed_of_isOperator hslash' head)]

theorem occurrences_of_afterHead? {name colon slash slash' : Token} {path : List Token}
    (h : afterHead? (name :: colon :: slash :: slash' :: path) = some path) :
    occurrences (name :: colon :: slash :: slash' :: path) =
      Occurrence.ofPath name slash' path :: occurrences path := by
  rw [occurrences, occurrence?_of_afterHead? h, Option.toList_some, List.singleton_append,
    occurrences_afterHead h]

theorem occurrences_of_afterHead?_eq_none {token : Token} {rest : List Token}
    (h : afterHead? (token :: rest) = none) : occurrences (token :: rest) = occurrences rest := by
  rw [occurrences, occurrence?_eq_none h, Option.toList_none, List.nil_append]

/-- Where nothing occurs, no head begins, and nothing occurs further on. -/
theorem occurrences_cons_eq_nil {token : Token} {rest : List Token}
    (h : occurrences (token :: rest) = []) :
    afterHead? (token :: rest) = none ∧ occurrences rest = [] := by
  cases hhead : afterHead? (token :: rest) with
  | none => exact ⟨rfl, (occurrences_of_afterHead?_eq_none hhead).symm.trans h⟩
  | some path =>
      obtain ⟨name, colon, slash, slash', htokens, -⟩ := afterHead?_eq_some hhead
      rw [htokens] at h hhead
      rw [occurrences_of_afterHead? hhead] at h
      cases h

theorem occurrences_suffix_append (before rest : List Token) :
    occurrences rest <:+ occurrences (before ++ rest) := by
  induction before with
  | nil => exact List.suffix_refl _
  | cons token before ih => exact ih.trans (List.suffix_append _ _)

theorem occurrences_eq_nil_of_append {before rest : List Token}
    (h : occurrences (before ++ rest) = []) : occurrences rest = [] :=
  List.suffix_nil.mp (h ▸ occurrences_suffix_append before rest)

theorem occurrences_append_of_not_head {before : List Token}
    (h : ∀ token ∈ before, token.isNamed head = false) (rest : List Token) :
    occurrences (before ++ rest) = occurrences rest := by
  induction before with
  | nil => rfl
  | cons token before ih =>
      obtain ⟨htoken, hbefore⟩ := List.forall_mem_cons.mp h
      rw [List.cons_append, occurrences_cons_of_not_head htoken, ih hbefore]

theorem first_ofPath (name slash : Token) (path : List Token) :
    (Occurrence.ofPath name slash path).span.first = name.first := by
  rw [Occurrence.ofPath]
  split <;> rfl

/-! ### By the grammar -/

theorem headed_of_afterHead? {name colon slash slash' : Token} {path : List Token}
    (h : afterHead? (name :: colon :: slash :: slash' :: path) = some path) :
    Headed (name :: colon :: slash :: slash' :: path) name slash' path := by
  obtain ⟨_, _, _, _, htokens, hhead⟩ := afterHead?_eq_some h
  simp only [List.cons.injEq] at htokens
  obtain ⟨rfl, rfl, rfl, rfl, -⟩ := htokens
  exact ⟨[], colon, slash, rfl, hhead⟩

/-- What is found is what is made of the heads. -/
theorem mem_occurrences {tokens : List Token} {occurrence : Occurrence} :
    occurrence ∈ occurrences tokens ↔
      ∃ name slash path, Headed tokens name slash path ∧ occurrence = .ofPath name slash path := by
  constructor
  · intro h
    induction tokens with
    | nil => cases h
    | cons token rest ih =>
        have hrest (h : occurrence ∈ occurrences rest) :
            ∃ name slash path, Headed (token :: rest) name slash path ∧
              occurrence = .ofPath name slash path := by
          obtain ⟨name, slash, path, ⟨before, colon, slash', rfl, hhead⟩, hmade⟩ := ih h
          exact ⟨name, slash, path, ⟨token :: before, colon, slash', rfl, hhead⟩, hmade⟩
        cases hhead : afterHead? (token :: rest) with
        | none =>
            rw [occurrences_of_afterHead?_eq_none hhead] at h
            exact hrest h
        | some path =>
            obtain ⟨name, colon, slash, slash', htokens, -⟩ := afterHead?_eq_some hhead
            obtain ⟨rfl, rfl⟩ := List.cons.inj htokens
            rw [occurrences_of_afterHead? hhead, ← occurrences_afterHead hhead] at h
            rcases List.mem_cons.mp h with rfl | h
            · exact ⟨token, slash', path, headed_of_afterHead? hhead, rfl⟩
            · exact hrest h
  · rintro ⟨name, slash, path, ⟨before, colon, slash', rfl, hname, hcolon, hslash', hslash⟩, rfl⟩
    refine (occurrences_suffix_append before _).subset ?_
    rw [occurrences_of_afterHead? (afterHead?_of_head hname hcolon hslash' hslash path)]
    exact List.mem_cons_self

/-- **What is found** is just what occurs by the grammar. -/
theorem mem_occurrences_iff {tokens : List Token} {occurrence : Occurrence} :
    occurrence ∈ occurrences tokens ↔ Occurs tokens occurrence := by
  rw [mem_occurrences]
  constructor
  · rintro ⟨name, slash, path, hhead, rfl⟩
    rw [Occurrence.ofPath]
    split
    · rename_i reference last hread
      obtain ⟨rest, hpath⟩ := readPath_eq_ok_iff.mp hread
      exact .wellFormed hhead hpath
    · rename_i fault hread
      exact .malformed hhead (readPath_eq_error_iff.mp hread)
  · intro h
    cases h with
    | @wellFormed name slash last path rest reference hhead hpath =>
        refine ⟨name, slash, path, hhead, ?_⟩
        rw [Occurrence.ofPath, readPath_of_spelled hpath]
    | @malformed name slash path fault hhead hpath =>
        refine ⟨name, slash, path, hhead, ?_⟩
        rw [Occurrence.ofPath, readPath_of_misspelled hpath]

/-! ### In the formula -/

/-- An occurrence ends before the tokens that the next ones are among. -/
theorem exists_laid_ofPath {start stop : Nat} {name colon slash slash' : Token}
    {path : List Token}
    (h : Span.Laid start stop ((name :: colon :: slash :: slash' :: path).map Token.span)) :
    ∃ after, occurrences path = occurrences after ∧
      Span.Laid start stop
        ((Occurrence.ofPath name slash' path).span :: after.map Token.span) := by
  rw [Occurrence.ofPath]
  cases hread : readPath path with
  | error fault =>
      have hrow : Span.Laid start stop
          (name.span :: ([colon.span, slash.span] ++ slash'.span :: path.map Token.span)) := h
      exact ⟨path, rfl, hrow.join⟩
  | ok found =>
      obtain ⟨reference, last⟩ := found
      obtain ⟨after, hspelled⟩ := spelled_of_readPath hread
      obtain ⟨before, hpath⟩ := hspelled.exists_eq_append
      have hrow : Span.Laid start stop
          (name.span :: ((colon :: slash :: slash' :: before).map Token.span ++
            last.span :: after.map Token.span)) := by
        rw [hpath] at h
        simpa only [List.map_cons, List.map_append, List.cons_append] using h
      exact ⟨after, hspelled.occurrences_eq, hrow.join⟩

/-- **The occurrences of a formula** lie in it one after the other. -/
theorem laid_span_occurrences {start stop : Nat} {tokens : List Token}
    (h : Span.Laid start stop (tokens.map Token.span)) :
    Span.Laid start stop ((occurrences tokens).map Occurrence.span) := by
  induction tokens generalizing start with
  | nil => exact .nil
  | cons token rest ih =>
      cases hhead : afterHead? (token :: rest) with
      | none =>
          rw [occurrences_of_afterHead?_eq_none hhead]
          exact ih (h.sublist (List.sublist_cons_self _ _))
      | some path =>
          obtain ⟨name, colon, slash, slash', htokens, -⟩ := afterHead?_eq_some hhead
          obtain ⟨rfl, rfl⟩ := List.cons.inj htokens
          obtain ⟨after, hafter, hlaid⟩ := exists_laid_ofPath h
          -- The next occurrences begin with tokens behind this one, later than `h.tail` says.
          have hbehind : ∀ span ∈ (occurrences path).map Occurrence.span,
              (Occurrence.ofPath token slash' path).span.last + 1 ≤ span.first := by
            intro span hspan
            obtain ⟨occurrence, hoccurrence, rfl⟩ := List.mem_map.mp hspan
            rw [hafter] at hoccurrence
            obtain ⟨found, slash, path, hfound, rfl⟩ := mem_occurrences.mp hoccurrence
            rw [first_ofPath]
            exact hlaid.tail.start_le found.span (List.mem_map_of_mem hfound.mem)
          have hnext := ih h.tail
          rw [occurrences_afterHead hhead] at hnext
          rw [occurrences_of_afterHead? hhead, List.map_cons]
          exact .cons (hlaid.first_le_last _ List.mem_cons_self)
            (hlaid.start_le _ List.mem_cons_self) (hlaid.lt_stop _ List.mem_cons_self)
            (hnext.of_start_le hbehind)

end CounterFormula.Reference
