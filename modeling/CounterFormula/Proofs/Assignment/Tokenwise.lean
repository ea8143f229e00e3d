import CounterFormula.Proofs.Assignment.Sweep
import CounterFormula.Proofs.Token.Single
import Mathlib.Data.List.Nodup

/-!
# Assignment — Tokenwise

What putting the values in does to the tokens of a formula.  A text without a lexical fault has a
boundary on either side of every word, and no name reaches over a boundary.  So the sweep works on
each token on its own, and what stands between the tokens stays.

Within a token the names are replaced as plain text, one after the other.  A variable gives way to
its own value unless the name of an earlier assignment is a proper prefix of it; a symbol may hold a
name too.

* `sweep_eq_patchFrom`: a text is swept token by token.
* `body_formulaPart`: the tokens of the formula proper are those before the first assignment.
* `substitute_eq_patch_swept`: what becomes of each token of the formula proper.
-/

namespace CounterFormula.Assignment

variable {mode : Mode} {source text : Text} {token : Token} {tokens : List Token} {start : Nat}
  {values : List (Text × Text)}

/-! ### Token by token -/

/-- **A text without an error** is swept token by token: what stands between the tokens stays. -/
theorem sweep_eq_patchFrom {place : Lexer.Place} {answer? : Token → Option Text}
    (hvalues : ∀ c, Lexer.inWord c = false → NotNamed values c)
    (h : Lexer.Scans place start text tokens) (htext : source.drop start = text)
    (hclean : ∀ token ∈ tokens, token.kind ≠ .error)
    (hanswer : ∀ token ∈ tokens,
      sweep values (token.slice source) = (answer? token).getD (token.slice source)) :
    sweep values text = source.patchFrom start (patches answer? tokens) := by
  have hboundary (c : Char) (hc : Lexer.inWord c = false) (rest : Text) :
      sweep values (c :: rest) = c :: sweep values rest := by
    rw [← List.nil_append (c :: rest), sweep_append_cons (hvalues c hc), sweep_nil,
      List.nil_append]
  induction h with
  | done => rw [sweep_nil, patches, List.filterMap_nil, Text.patchFrom, htext]
  | @blank _ start c rest tokens hc h ih =>
      have hrest : source.drop start = [c] ++ rest := htext
      have hmore := Text.drop_of_drop_eq hrest
      rw [hboundary c (Lexer.inWord_of_isBlank hc), ih hmore hclean hanswer]
      exact (Text.patchFrom_of_drop_eq hrest (le_first_of_mem_patches (h.start_le hmore))).symm
  | @sign _ start c rest tokens hc h ih =>
      have hrest : source.drop start = [c] ++ rest := htext
      have hmore := Text.drop_of_drop_eq hrest
      obtain ⟨-, hothers⟩ := List.forall_mem_cons.mp hclean
      obtain ⟨htoken, hanswers⟩ := List.forall_mem_cons.mp hanswer
      have hword := Lexer.inWord_of_isOperator hc
      have hsign : (Lexer.operatorToken start c).slice source = [c] :=
        Token.slice_eq_of_drop hrest rfl rfl
      have hrun : [c] = (answer? (Lexer.operatorToken start c)).getD [c] := by
        rwa [hsign, hboundary c hword, sweep_nil] at htoken
      rw [patchFrom_patches_cons hrest rfl rfl (h.start_le hmore), ← hrun, hboundary c hword,
        ih hmore hothers hanswers]
      rfl
  | @run start c kind more rest tokens hc hmore hlongest h ih =>
      have hbehind := Text.drop_of_drop_eq htext
      obtain ⟨-, hothers⟩ := List.forall_mem_cons.mp hclean
      obtain ⟨htoken, hanswers⟩ := List.forall_mem_cons.mp hanswer
      have hfirst : (Lexer.runToken kind start (c :: more)).first = start :=
        Lexer.first_runToken kind start _
      have hlast : (Lexer.runToken kind start (c :: more)).last + 1 =
          start + (c :: more).length := by
        rw [Lexer.last_runToken]
        rfl
      have hstops : ∀ d, rest.head? = some d → NotNamed values d := fun d hd =>
        hvalues d ((h.of_no_error hothers).1 d hd)
      rw [patchFrom_patches_cons htext hfirst hlast (h.start_le hbehind),
        ← ih hbehind hothers hanswers, sweep_append_of_head? hstops]
      rw [Token.slice_eq_of_drop htext hfirst hlast] at htoken
      rw [htoken]
  | error => exact absurd rfl (hclean _ List.mem_cons_self)

/-! ### The formula proper -/

/-- **The tokens of the formula proper** are those before the first assignment. -/
theorem body_formulaPart (mode : Mode) (source : Text) :
    let table := (extract (lex mode source).body).1
    (lex mode (formulaPart source table)).body =
      (lex mode source).body.filter (·.first < cut source table) := by
  intro table
  cases htable : table with
  | nil =>
      refine (List.filter_eq_self.mpr fun token htoken => decide_eq_true ?_).symm
      obtain ⟨hle, hlt⟩ := bounds_of_mem_body htoken
      exact Nat.lt_of_le_of_lt hle hlt
  | cons first more =>
      have hfirst : first ∈ table := htable ▸ List.mem_cons_self
      obtain ⟨hstands, -⟩ := stands_of_mem_extract hfirst
      have hlength : (source.take first.name.first).length = first.name.first := by
        obtain ⟨hle, hlt⟩ := bounds_of_mem_body (name_of_mem_extract hfirst).1
        exact List.length_take_of_le (Nat.le_of_lt (Nat.lt_of_le_of_lt hle hlt))
      have hbody := body_append mode (.inl hstands.before :
        Lexer.Parted (source.take first.name.first) (source.drop first.name.first))
      rw [List.take_append_drop, hlength] at hbody
      have hbefore : ∀ token ∈ (lex mode (source.take first.name.first)).body,
          token.first < first.name.first := by
        intro token htoken
        obtain ⟨hle, hlt⟩ := bounds_of_mem_body htoken
        rw [hlength] at hlt
        exact Nat.lt_of_le_of_lt hle hlt
      rw [formulaPart, body_trimEnd, cut, hbody, List.filter_append,
        List.filter_eq_self.mpr fun token htoken => decide_eq_true (hbefore token htoken),
        List.filter_eq_nil_iff.mpr fun token htoken hlt =>
          Nat.not_lt.mpr (first_of_mem_shift htoken).1 (of_decide_eq_true hlt), List.append_nil]

/-! ### Names -/

variable {table : List Assignment} {name : Text} {value : Text × Text}

/-- A name that is added to a table is not in it. -/
theorem ne_of_definedName {previous : Option Token} {found : Token}
    (h : definedName table previous = .ok found) :
    ∀ assignment ∈ table, assignment.name.text ≠ found.text := by
  obtain ⟨rfl, -⟩ := isVariable_of_definedName h
  rw [definedName] at h
  split at h
  · cases h
  · split at h
    · cases h
    · split at h
      · cases h
      · rename_i hnone
        intro assignment hassignment heq
        exact hnone (List.any_eq_true.mpr ⟨assignment, hassignment, beq_iff_eq.mpr heq⟩)

theorem nodup_names_extractFrom {previous : Option Token}
    (h : (table.map (·.name.text)).Nodup) :
    ((extractFrom table previous tokens).1.map (·.name.text)).Nodup := by
  fun_induction extractFrom table previous tokens with
  | case1 => exact h
  | case2 table previous token rest _ _ _ _ _ hrest ih =>
      rw [hrest] at ih
      exact ih h
  | case3 table previous token rest _ name hdefined ih =>
      refine ih ?_
      rw [List.map_append, List.nodup_append]
      refine ⟨h, List.nodup_singleton _, fun found hfound added hadded => ?_⟩
      obtain ⟨assignment, hassignment, rfl⟩ := List.mem_map.mp hfound
      rw [List.mem_singleton.mp hadded]
      exact ne_of_definedName hdefined assignment hassignment
  | case4 table previous token rest _ ih => exact ih h

/-- **No name is assigned twice.** -/
theorem nodup_names_values (source : Text) (tokens : List Token) :
    ((Assignment.values source (extract tokens).1).map Prod.fst).Nodup := by
  rw [Assignment.values, List.map_map]
  exact nodup_names_extractFrom List.nodup_nil

theorem ne_of_nodup_names {before after : List (Text × Text)} (h : (values.map Prod.fst).Nodup)
    (hvalues : values = before ++ value :: after) : ∀ earlier ∈ before, earlier.1 ≠ value.1 := by
  rw [hvalues, List.map_append, List.map_cons, List.nodup_append] at h
  intro earlier hearlier
  exact h.2.2 _ (List.mem_map_of_mem hearlier) _ List.mem_cons_self

/-- A variable is spelled with one sigil, at its beginning. -/
theorem exists_text_of_isVariable (hmem : token ∈ (lex mode source).body)
    (hvariable : token.isVariable = true) : ∃ more, token.text = '$' :: more ∧ '$' ∉ more := by
  have hkind := Token.kind_of_isVariable hvariable
  obtain ⟨c, more, htext, hbegins, hmore⟩ := (stands_of_mem_body hmem (.inr hkind)).run
  rw [hkind] at hbegins hmore
  cases hbegins
  refine ⟨more, htext, fun hsigil => ?_⟩
  exact absurd (hmore '$' hsigil) (by decide)

/-- A name that occurs in a variable is a prefix of it. -/
theorem IsName.isPrefix_of_isInfix (h : IsName name) (hmem : token ∈ (lex mode source).body)
    (hvariable : token.isVariable = true) (hoccurs : name <:+: token.text) :
    name <+: token.text := by
  obtain ⟨mark, rfl, -⟩ := h
  obtain ⟨more, htext, hsigil⟩ := exists_text_of_isVariable hmem hvariable
  rw [htext] at hoccurs ⊢
  exact Text.isPrefix_of_isInfix_cons hsigil hoccurs

/-! ### Variables -/

theorem sweep_append (before after : List (Text × Text)) (text : Text) :
    sweep (before ++ after) text = sweep after (sweep before text) :=
  List.foldl_append

/-- A name in which no earlier name occurs gives way to its own value, in which the later names are
replaced. -/
theorem sweep_name {before after : List (Text × Text)}
    (h : ∀ earlier ∈ before, ¬ earlier.1 <:+: name) (hne : name ≠ []) (new : Text) :
    sweep (before ++ (name, new) :: after) name = sweep after new := by
  have hname : Text.replace name new name = new := Text.replace_self hne new
  rw [sweep_append, sweep_eq_self h]
  exact congrArg (sweep after) hname

/-- **A variable** that is assigned gives way to its own value, unless the name of an earlier
assignment is a proper prefix of it. -/
theorem sweep_slice_of_isVariable {before after : List (Text × Text)}
    (hvalues : Assignment.values source (extract (lex mode source).body).1 =
      before ++ value :: after)
    (hmem : token ∈ (lex mode source).body) (hvariable : token.isVariable = true)
    (hname : token.text = value.1)
    (hbefore : ∀ earlier ∈ before, earlier.1 <+: token.text → earlier.1 = token.text) :
    sweep (before ++ value :: after) (token.slice source) = sweep after value.2 := by
  obtain ⟨more, htext, -⟩ := exists_text_of_isVariable hmem hvariable
  have hne : value.1 ≠ [] := by
    rw [← hname, htext]
    exact List.cons_ne_nil _ _
  rw [slice_eq_text hmem (.inr (Token.kind_of_isVariable hvariable)), hname]
  refine sweep_name (fun earlier hearlier hoccurs => ?_) hne value.2
  have hvalue : earlier ∈ Assignment.values source (extract (lex mode source).body).1 := by
    rw [hvalues]
    exact List.mem_append_left _ hearlier
  rw [← hname] at hoccurs
  have heq := hbefore earlier hearlier
    ((isName_of_mem_values hvalue).isPrefix_of_isInfix hmem hvariable hoccurs)
  exact ne_of_nodup_names (nodup_names_values source _) hvalues earlier hearlier (heq.trans hname)

/-! ### Every token -/

theorem formulaPart_isPrefix (source : Text) (table : List Assignment) :
    formulaPart source table <+: source := by
  cases table with
  | nil => exact List.prefix_refl source
  | cons first more => exact (List.rdropWhile_prefix Text.isBlank _).trans (List.take_prefix _ _)

/-- **The formula proper**, when it is known what becomes of each of its tokens on its own. -/
theorem substitute_eq_patch_patches {answer? : Token → Option Text}
    (hfaults : (lex .strict source).faults = []) :
    let tokens := (lex mode source).body
    let table := (extract tokens).1
    let proper := tokens.filter (·.first < cut source table)
    (∀ token ∈ proper, sweep (Assignment.values source table) (token.slice source) =
        (answer? token).getD (token.slice source)) →
      substitute source table = (formulaPart source table).patch (patches answer? proper) := by
  intro tokens table proper hanswer
  have hbody : (lex .strict (formulaPart source table)).body = proper := by
    have hproper := body_formulaPart .strict source
    rw [← lex_of_faults mode hfaults] at hproper
    exact hproper
  have hscans : Lexer.Scans .boundary 0 (formulaPart source table) proper :=
    scans_iff.mpr hbody.symm
  have hvalues := notNamed_of_not_inWord
    fun value (hvalue : value ∈ Assignment.values source table) => isName_of_mem_values hvalue
  refine sweep_eq_patchFrom hvalues hscans rfl (fun token htoken => ?_) fun token htoken => ?_
  · refine no_error_of_faults hfaults token ?_
    rw [← lex_of_faults mode hfaults]
    exact List.mem_of_mem_filter htoken
  · have hlt : token.last < (formulaPart source table).length := by
      rw [← hbody] at htoken
      exact (bounds_of_mem_body htoken).2
    rw [slice_of_isPrefix (formulaPart_isPrefix source table) hlt]
    exact hanswer token htoken

/-- **Pass 2, token by token**, for a formula without a lexical fault.  The formula proper, whose
tokens are those before the first assignment, is kept but for its tokens, and each of these is swept
on its own.  A token stays when no assigned name occurs in its characters, in particular when it is
neither a variable nor a symbol.  A variable that is assigned gives way to its own value, with the
later names in it replaced, unless the name of an earlier assignment is a proper prefix of it. -/
theorem substitute_eq_patch_swept (mode : Mode) (source : Text)
    (hfaults : (lex .strict source).faults = []) :
    let tokens := (lex mode source).body
    let table := (extract tokens).1
    let values := Assignment.values source table
    let proper := tokens.filter (·.first < cut source table)
    let swept (token : Token) := sweep values (token.slice source)
    (lex mode (formulaPart source table)).body = proper ∧
      substitute source table =
        (formulaPart source table).patch (proper.map fun token => (token.span, swept token)) ∧
      ∀ token ∈ proper,
        ((∀ value ∈ values, ¬ value.1 <:+: token.slice source) →
          swept token = token.slice source) ∧
        (token.isVariable = false → token.isSymbol = false →
          swept token = token.slice source) ∧
        ∀ before value after, values = before ++ value :: after → token.isVariable = true →
          token.text = value.1 →
          (∀ earlier ∈ before, earlier.1 <+: token.text → earlier.1 = token.text) →
            swept token = sweep after value.2 := by
  intro tokens table values proper swept
  refine ⟨body_formulaPart mode source, ?_, fun token htoken => ⟨sweep_eq_self, ?_, ?_⟩⟩
  · rw [← patches_map]
    exact substitute_eq_patch_patches hfaults fun _ _ => rfl
  · intro hvariable hsymbol
    have hmem : token ∈ (lex .strict source).body := by
      rw [← lex_of_faults mode hfaults]
      exact List.mem_of_mem_filter htoken
    have hsigil := sigil_not_mem_slice (no_error_of_faults hfaults) hmem hsymbol hvariable
    exact sweep_eq_self fun value hvalue hoccurs =>
      hsigil (hoccurs.subset (isName_of_mem_values hvalue).sigil_mem)
  · intro before value after hvalues hvariable hname hbefore
    have hmem : token ∈ (lex mode source).body := List.mem_of_mem_filter htoken
    have hswept := sweep_slice_of_isVariable hvalues hmem hvariable hname hbefore
    rw [← hvalues] at hswept
    exact hswept

/-- A name whose value holds a later name, and a symbol without one. -/
theorem substitute_eq_patch_swept_of_later :
    let source := "A*$r $r=$n/2 $n=B".toList
    let tokens := (lex .strict source).body
    let table := (extract tokens).1
    let values := Assignment.values source table
    let proper := tokens.filter (·.first < cut source table)
    let swept (token : Token) := sweep values (token.slice source)
    let symbol : Token := ⟨.symbol, ['A'], 0, 0⟩
    let assigned : Token := ⟨.var, "$r".toList, 2, 3⟩
    (lex .strict source).faults = [] ∧ symbol ∈ proper ∧ assigned ∈ proper ∧
      (formulaPart source table).patch (proper.map fun token => (token.span, swept token)) =
        "A*B/2".toList ∧
      (∀ value ∈ values, ¬ value.1 <:+: symbol.slice source) ∧
      values = [] ++ ("$r".toList, "$n/2".toList) :: [("$n".toList, "B".toList)] ∧
      substitute source table = "A*B/2".toList ∧ swept symbol = "A".toList ∧
      swept assigned = sweep [("$n".toList, "B".toList)] "$n/2".toList := by
  intro source tokens table values proper swept symbol assigned
  obtain ⟨hfaults, hsymbol, hvariable, hpatch, hunnamed, hvalues⟩ :
      (lex .strict source).faults = [] ∧ symbol ∈ proper ∧ assigned ∈ proper ∧
        (formulaPart source table).patch (proper.map fun token => (token.span, swept token)) =
          "A*B/2".toList ∧
        (∀ value ∈ values, ¬ value.1 <:+: symbol.slice source) ∧
        values = [] ++ ("$r".toList, "$n/2".toList) :: [("$n".toList, "B".toList)] := by
    decide +kernel
  obtain ⟨-, hsubstitute, heach⟩ := substitute_eq_patch_swept .strict source hfaults
  obtain ⟨hstays, -, -⟩ := heach symbol hsymbol
  obtain ⟨-, -, hown⟩ := heach assigned hvariable
  exact ⟨hfaults, hsymbol, hvariable, hpatch, hunnamed, hvalues, hsubstitute.trans hpatch,
    hstays hunnamed, hown _ _ _ hvalues rfl rfl nofun⟩

/-- A symbol and a longer variable hold an assigned name, and the value of one name is not put in
where an earlier name is a prefix of it.  Token for token the names would be replaced otherwise. -/
theorem substitute_ne_patch_own :
    let source := "A$x $ab $xy $a=1 $ab=2 $x=3".toList
    let tokens := (lex .strict source).body
    let table := (extract tokens).1
    let values := Assignment.values source table
    let proper := tokens.filter (·.first < cut source table)
    let own? (token : Token) : Option Text :=
      match values.dropWhile (·.1 != token.text) with
      | (_, value) :: later => if token.isVariable then some (sweep later value) else none
      | [] => none
    (lex .strict source).faults = [] ∧
      proper.map Token.spelling =
        [(.symbol, "A$x".toList), (.var, "$ab".toList), (.var, "$xy".toList)] ∧
      values = [("$a".toList, ['1']), ("$ab".toList, ['2']), ("$x".toList, ['3'])] ∧
      (formulaPart source table).patch (patches own? proper) = "A$x 2 $xy".toList ∧
      substitute source table = "A3 1b 3y".toList ∧
      substitute source table ≠ (formulaPart source table).patch (patches own? proper) := by
  decide +kernel

end CounterFormula.Assignment
