import CounterFormula.Proofs.Token.Patched

/-!
# Token — Single

The tokens of a text one by one: the characters that a token extends over, and what becomes of a
text when some of its tokens are replaced, each by a text that `answer?` gives for it.  A symbol or
a variable of a text without an error is framed, so that the text put in for it reads as on its own.

* `slice_eq_text`: a symbol or a variable extends over the characters it is spelled with.
* `spellings_patch_patches`: the tokens of a text in which symbols and variables are replaced.
-/

namespace CounterFormula

/-- The characters of `source` that `token` extends over. -/
def Token.slice (token : Token) (source : Text) : Text :=
  Text.slice source token.first token.last

/-- What the tokens with an answer of `answer?` are replaced by. -/
def patches (answer? : Token → Option Text) (tokens : List Token) : List (Span × Text) :=
  tokens.filterMap fun token => (answer? token).map (token.span, ·)

variable {mode : Mode} {source text run rest : Text} {token : Token} {tokens : List Token}
  {start stop : Nat} {answer? : Token → Option Text} {place : Lexer.Place}

/-! ### The characters of a token -/

theorem Token.slice_eq_of_drop (h : source.drop start = run ++ rest) (hfirst : token.first = start)
    (hlast : token.last + 1 = start + run.length) : token.slice source = run := by
  rw [slice, Text.slice, hfirst, hlast, h, Nat.add_sub_cancel_left, List.take_left]

/-- A symbol or a variable extends over the characters that it is spelled with. -/
theorem Lexer.Stands.slice_eq (h : Stands source token) (hle : token.first ≤ token.last)
    (hlt : token.last < source.length) : token.slice source = token.text := by
  refine Token.slice_eq_of_drop h.drop_eq rfl ?_
  have hlength := congrArg List.length h.drop_eq
  rw [List.length_append, List.length_drop, List.length_drop] at hlength
  omega

theorem slice_eq_text (hmem : token ∈ (lex mode source).body)
    (hkind : token.kind = .symbol ∨ token.kind = .var) : token.slice source = token.text := by
  obtain ⟨hle, hlt⟩ := bounds_of_mem_body hmem
  exact (stands_of_mem_body hmem hkind).slice_eq hle hlt

/-- In a text without an error only symbols and variables extend over a sigil. -/
theorem sigil_not_mem_slice (hclean : ∀ token ∈ (lex .strict source).body, token.kind ≠ .error)
    (hmem : token ∈ (lex .strict source).body) (hsymbol : token.isSymbol = false)
    (hvariable : token.isVariable = false) : '$' ∉ token.slice source := by
  obtain ⟨before, after, hbody⟩ := List.append_of_mem hmem
  have hbody' : (lex .strict source).body = before ++ [token] ++ after := by
    rw [hbody, List.append_assoc, List.singleton_append]
  have hread : (lex .strict (token.slice source)).body.map (Token.shift token.first) = [token] :=
    body_slice hclean hbody' rfl rfl
  have hkinds {found : Token} (hfound : found ∈ (lex .strict (token.slice source)).body) :
      found.kind = token.kind := by
    have hshift := List.mem_map_of_mem (f := Token.shift token.first) hfound
    rw [hread, List.mem_singleton] at hshift
    rw [← hshift]
    rfl
  intro hsigil
  have hscans : Lexer.Scans .boundary 0 (token.slice source) _ := scans_iff.mpr rfl
  obtain ⟨found, hfound, hsymbol', -⟩ := hscans.exists_symbol
    (fun found hfound => hkinds hfound ▸ hclean token hmem)
    (fun found hfound => by rw [Token.isVariable, hkinds hfound]; exact hvariable) hsigil
  rw [Token.isSymbol, hkinds hfound] at hsymbol'
  exact absurd hsymbol' (Bool.eq_false_iff.mp hsymbol)

theorem slice_of_isPrefix {front : Text} (h : front <+: source)
    (hlt : token.last < front.length) : token.slice front = token.slice source := by
  obtain ⟨rest, rfl⟩ := h
  by_cases hfirst : token.first ≤ front.length
  · rw [Token.slice, Token.slice, Text.slice, Text.slice, List.drop_append_of_le_length hfirst,
      List.take_append_of_le_length]
    rw [List.length_drop]
    omega
  · have hnone : token.last + 1 - token.first = 0 := by omega
    rw [Token.slice, Token.slice, Text.slice, Text.slice, hnone, List.take_zero, List.take_zero]

/-! ### Tokens that are replaced -/

theorem patches_map (answer : Token → Text) (tokens : List Token) :
    patches (fun token => some (answer token)) tokens =
      tokens.map fun token => (token.span, answer token) :=
  congrFun List.filterMap_eq_map tokens

theorem le_first_of_mem_patches
    (h : ∀ token ∈ tokens, start ≤ token.first) :
    ∀ patch ∈ patches answer? tokens, start ≤ patch.1.first := by
  intro patch hpatch
  obtain ⟨token, htoken, hmade⟩ := List.mem_filterMap.mp hpatch
  obtain ⟨new, -, rfl⟩ := Option.map_eq_some_iff.mp hmade
  exact h token htoken

theorem sublist_span_patches (tokens : List Token) :
    ((patches answer? tokens).map Prod.fst).Sublist (tokens.map Token.span) := by
  induction tokens with
  | nil => exact .slnil
  | cons token more ih =>
      rw [patches, List.filterMap_cons]
      cases answer? token with
      | none => exact ih.cons _
      | some new => exact ih.cons_cons _

/-- The token that is read first is replaced, or stays. -/
theorem patchFrom_patches_cons
    (htext : source.drop start = run ++ rest) (hfirst : token.first = start)
    (hlast : token.last + 1 = start + run.length)
    (htokens : ∀ token ∈ tokens, start + run.length ≤ token.first) :
    source.patchFrom start (patches answer? (token :: tokens)) =
      (answer? token).getD run ++
        source.patchFrom (start + run.length) (patches answer? tokens) := by
  rw [patches, List.filterMap_cons]
  cases hanswer : answer? token with
  | none => exact Text.patchFrom_of_drop_eq htext (le_first_of_mem_patches htokens)
  | some new =>
      have hspan : token.span.first - start = 0 := Nat.sub_eq_zero_of_le (Nat.le_of_eq hfirst)
      have hstop : token.span.last + 1 = start + run.length := hlast
      rw [Option.map_some, Text.patchFrom, hspan, hstop]
      rfl

/-- Each token gives way to its answer, or stays. -/
theorem replacement_patches (hlaid : Span.Laid start stop (tokens.map Token.span))
    (htoken : token ∈ tokens) :
    replacement mode (patches answer? tokens) token =
      match answer? token with
      | none => [token.spelling]
      | some new => spellings mode new := by
  induction tokens generalizing start with
  | nil => cases htoken
  | cons first more ih =>
      have hbehind : ∀ found ∈ more, first.last + 1 ≤ found.first := fun found hfound =>
        hlaid.tail.start_le _ (List.mem_map_of_mem (f := Token.span) hfound)
      have hle : first.first ≤ first.last := hlaid.first_le_last _ List.mem_cons_self
      rcases List.mem_cons.mp htoken with rfl | hmore
      · cases hanswer : answer? token with
        | none =>
            refine (replacement_of_lt fun patch hpatch => ?_)
            rw [patches, List.filterMap_cons, hanswer] at hpatch
            have := le_first_of_mem_patches hbehind patch hpatch
            omega
        | some new =>
            rw [patches, List.filterMap_cons, hanswer, Option.map_some]
            exact (replacement_cons_of_le (Nat.le_refl _) hle).trans (if_pos rfl)
      · rw [← ih hlaid.tail hmore, patches, List.filterMap_cons]
        cases hanswer : answer? first with
        | none => rfl
        | some new => exact replacement_cons_of_lt (hbehind token hmore)

/-- In a text without an error a boundary follows every symbol and variable. -/
theorem Lexer.Scans.stops_behind (h : Scans place start text tokens)
    (htext : source.drop start = text) (hclean : ∀ token ∈ tokens, token.kind ≠ .error)
    (hmem : token ∈ tokens) (hkind : token.kind = .symbol ∨ token.kind = .var) :
    Stops inWord (source.drop (token.last + 1)) := by
  induction h with
  | done => cases hmem
  | blank _ _ ih =>
      exact ih (Text.drop_of_drop_eq (show source.drop _ = [_] ++ _ from htext)) hclean hmem
  | sign _ _ ih =>
      rcases List.mem_cons.mp hmem with rfl | hmem
      · rcases hkind with hkind | hkind <;> cases hkind
      · exact ih (Text.drop_of_drop_eq (show source.drop _ = [_] ++ _ from htext))
          (List.forall_mem_cons.mp hclean).2 hmem
  | @run start c kind more rest _ _ _ _ h ih =>
      have hrest := Text.drop_of_drop_eq htext
      rcases List.mem_cons.mp hmem with rfl | hmem
      · have hlast : (runToken kind start (c :: more)).last + 1 = start + (c :: more).length := by
          rw [last_runToken]
          rfl
        rw [hlast, hrest]
        exact (h.of_no_error (List.forall_mem_cons.mp hclean).2).1
      · exact ih hrest (List.forall_mem_cons.mp hclean).2 hmem
  | error => exact absurd rfl (hclean _ List.mem_cons_self)

/-- **A symbol or a variable** of a text without an error is framed. -/
theorem framed_span (hclean : ∀ token ∈ (lex .strict source).body, token.kind ≠ .error)
    (hmem : token ∈ (lex .strict source).body)
    (hkind : token.kind = .symbol ∨ token.kind = .var) : Framed source token.span := by
  have hstands := stands_of_mem_body hmem hkind
  have hscans : Lexer.Scans .boundary 0 source (lex .strict source).body := scans_iff.mpr rfl
  obtain ⟨c, more, htext, hbegins, -⟩ := hstands.run
  have hhead : source[token.first]? = some c := by
    rw [← List.head?_drop, hstands.drop_eq, htext]
    rfl
  exact ⟨hstands.before, ⟨c, token.kind, hhead, hbegins⟩, hscans.stops_behind rfl hclean hmem hkind⟩

/-- **The tokens of a text** in which symbols and variables are replaced: each gives way to the
tokens of its answer, read on its own, and those without an answer stay. -/
theorem spellings_patch_patches
    (hclean : ∀ token ∈ (lex .strict source).body, token.kind ≠ .error)
    (hkind : ∀ token new, answer? token = some new → token.kind = .symbol ∨ token.kind = .var) :
    spellings .strict (source.patch (patches answer? (lex .strict source).body)) =
      (lex .strict source).body.flatMap fun token =>
        match answer? token with
        | none => [token.spelling]
        | some new => spellings .strict new := by
  have hlaid := laid_span_body .strict source
  have hspans : ((patches answer? (lex .strict source).body).map Prod.fst).Sublist
      ((lex .strict source).body.map Token.span) := sublist_span_patches _
  rw [spellings_patch .strict (hlaid.sublist hspans)]
  · exact List.flatMap_congr fun token htoken => replacement_patches hlaid htoken
  · intro patch hpatch
    obtain ⟨token, htoken, hmade⟩ := List.mem_filterMap.mp hpatch
    obtain ⟨new, hanswer, rfl⟩ := Option.map_eq_some_iff.mp hmade
    exact framed_span hclean htoken (hkind token new hanswer)

end CounterFormula
