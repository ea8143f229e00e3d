import CounterFormula.Proofs.Index
import CounterFormula.Proofs.Run.WellNested
import CounterFormula.Proofs.Token.Single

/-!
# Run — Symbols

What the symbol table of a run says of the formula that the run leaves.  A table *describes* tokens
when its names are the distinct texts of their symbols, in the order in which they first occur, and
the token that it keeps for a name is the last symbol of that text.  The table is made from the
tokens of the source that pass 3 leaves, so its tokens stand there; and the variables left there are
the faults of pass 4.

* `SymbolTable.describes_ofTokens`: the table made from tokens describes them.
* `symbols_runUnder`: so it is for every run that finds a formula, at every depth.
-/

namespace CounterFormula

/-- `token` is the last of `tokens` that is the symbol `name`. -/
def LastNamed (tokens : List Token) (name : Text) (token : Token) : Prop :=
  ∃ before after, tokens = before ++ token :: after ∧ token.isNamed name = true ∧
    ∀ later ∈ after, later.isNamed name = false

variable {mode : Mode} {source name : Text} {token : Token} {tokens : List Token}

/-! ### The last symbol of a name -/

theorem lastNamed_concat (h : token.isSymbol = true) (tokens : List Token) :
    LastNamed (tokens ++ [token]) token.text token :=
  ⟨tokens, [], rfl, by simp [Token.isNamed, h], List.forall_mem_nil _⟩

/-- A token of another name behind it leaves the last one the last. -/
theorem LastNamed.concat (h : LastNamed tokens name token) {next : Token}
    (hother : next.isNamed name = false) : LastNamed (tokens ++ [next]) name token := by
  obtain ⟨before, after, rfl, hnamed, hlater⟩ := h
  refine ⟨before, after ++ [next], by simp, hnamed, ?_⟩
  intro later hmem
  rcases List.mem_append.mp hmem with hmem | hmem
  · exact hlater later hmem
  · rwa [List.mem_singleton.mp hmem]

namespace SymbolTable

/-- `table` lists the symbols of `tokens` as they first occur, each with its last token. -/
structure Describes (table : SymbolTable) (tokens : List Token) : Prop where
  names_eq : table.names = ((tokens.filter Token.isSymbol).map Token.text).eraseDups
  last : ∀ name token, (name, token) ∈ table.entries → LastNamed tokens name token

variable {table : SymbolTable}

/-! ### One more token -/

theorem names_record (table : SymbolTable) (token : Token) :
    (table.record token).names =
      if token.text ∈ table.names then table.names else table.names ++ [token.text] := by
  rw [record]
  split
  · rw [names, names, List.map_map]
    refine List.map_congr_left fun entry _ => ?_
    simp only [Function.comp_apply]
    split <;> rfl
  · rw [names, names, List.map_append]
    rfl

/-- An entry of the new table is the one for the new token, or an old one of another name. -/
theorem mem_entries_record {entry : Text × Token} (h : entry ∈ (table.record token).entries) :
    entry = (token.text, token) ∨ entry ∈ table.entries ∧ entry.1 ≠ token.text := by
  rw [record] at h
  split at h
  · obtain ⟨old, hold, rfl⟩ := List.mem_map.mp h
    by_cases hname : old.1 = token.text
    · rw [if_pos hname, hname]
      exact .inl rfl
    · rw [if_neg hname]
      exact .inr ⟨hold, hname⟩
  · rename_i hnew
    rcases List.mem_append.mp h with hold | hlast
    · refine .inr ⟨hold, fun hname => hnew ?_⟩
      rw [← hname]
      exact List.mem_map_of_mem hold
    · exact .inl (List.mem_singleton.mp hlast)

theorem Describes.record (h : table.Describes tokens) (hsymbol : token.isSymbol = true) :
    (table.record token).Describes (tokens ++ [token]) := by
  constructor
  · rw [names_record, List.filter_append, List.filter_cons_of_pos hsymbol, List.filter_nil,
      List.map_append, List.map_singleton, eraseDups_concat]
    simp only [h.names_eq, List.mem_eraseDups]
  · intro name kept hentry
    rcases mem_entries_record hentry with hnew | ⟨hold, hname⟩
    · obtain ⟨rfl, rfl⟩ := Prod.mk.inj hnew
      exact lastNamed_concat hsymbol tokens
    · refine (h.last name kept hold).concat ?_
      rw [Token.isNamed, Bool.and_eq_false_iff]
      exact .inr (beq_eq_false_iff_ne.mpr (Ne.symm hname))

/-- What is no symbol changes nothing. -/
theorem Describes.skip (h : table.Describes tokens) (hother : token.isSymbol = false) :
    table.Describes (tokens ++ [token]) := by
  constructor
  · rw [h.names_eq, List.filter_append, List.filter_cons_of_neg (by simp [hother]), List.filter_nil,
      List.append_nil]
  · intro name kept hentry
    refine (h.last name kept hentry).concat ?_
    rw [Token.isNamed, hother, Bool.false_and]

/-! ### All tokens -/

theorem ofTokens_concat (tokens : List Token) (token : Token) :
    ofTokens (tokens ++ [token]) =
      if token.isSymbol then (ofTokens tokens).record token else ofTokens tokens := by
  rw [ofTokens, List.filter_append, List.foldl_append]
  by_cases hsymbol : token.isSymbol = true
  · rw [if_pos hsymbol, List.filter_cons_of_pos hsymbol]
    rfl
  · rw [if_neg hsymbol, List.filter_cons_of_neg hsymbol]
    rfl

/-- **The table made from tokens** describes them. -/
theorem describes_ofTokens (tokens : List Token) : (ofTokens tokens).Describes tokens := by
  induction tokens using List.reverseRecOn with
  | nil => exact ⟨rfl, nofun⟩
  | append_singleton tokens token ih =>
      rw [ofTokens_concat]
      by_cases hsymbol : token.isSymbol = true
      · rw [if_pos hsymbol]
        exact ih.record hsymbol
      · rw [if_neg hsymbol]
        exact ih.skip (Bool.eq_false_iff.mpr hsymbol)

end SymbolTable

/-! ### Symbols and variables of a text -/

theorem LastNamed.mem (h : LastNamed tokens name token) :
    token ∈ tokens ∧ token.isSymbol = true ∧ token.text = name := by
  obtain ⟨before, after, rfl, hnamed, -⟩ := h
  have hsymbol := (Bool.and_eq_true_iff.mp hnamed).1
  exact ⟨List.mem_append_right _ List.mem_cons_self, hsymbol, Token.text_of_isNamed hnamed⟩

/-- A symbol that is the last of its name extends over that name. -/
theorem LastNamed.slice_eq (h : LastNamed (lex mode source).body name token) :
    Text.slice source token.first token.last = name := by
  obtain ⟨hmem, hsymbol, rfl⟩ := h.mem
  exact slice_eq_text hmem (.inl (Token.kind_of_isSymbol hsymbol))

/-- No variable is spelled as a symbol. -/
theorem text_ne_of_isVariable {symbol : Token} (htoken : token ∈ (lex mode source).body)
    (hvariable : token.isVariable = true) (hmem : symbol ∈ (lex mode source).body)
    (hsymbol : symbol.isSymbol = true) : token.text ≠ symbol.text := by
  have hkind := Token.kind_of_isVariable hvariable
  have hkind' := Token.kind_of_isSymbol hsymbol
  obtain ⟨c, more, htext, hbegins, -⟩ := (stands_of_mem_body htoken (.inr hkind)).run
  obtain ⟨d, more', htext', hbegins', -⟩ := (stands_of_mem_body hmem (.inl hkind')).run
  rw [hkind] at hbegins
  rw [hkind'] at hbegins'
  intro heq
  rw [htext, htext'] at heq
  obtain ⟨rfl, -⟩ := List.cons.inj heq
  -- a sigil begins every variable, and no symbol
  cases hbegins
  cases hbegins' with
  | symbol hstarts => exact absurd hstarts (by decide)

/-! ### Every run -/

/-- **The symbol table of a run** that finds a formula describes the formula that the run leaves:
its names are the distinct texts of the symbols there, in the order in which they first occur; the
token that it keeps for a name is the last symbol of that name, and extends over just that name; and
pass 4 reports each variable there, in order and nothing else, none of which is spelled as a name of
the table. -/
theorem symbols_runUnder (registries : Registries) (config : Config) (chain : List Text)
    (document : Text) {raw : Text}
    (hfound : (runUnder registries config chain document).outcome.block = .formula raw) :
    let outcome := (runUnder registries config chain document).outcome
    let tokens := (lex config.mode outcome.expanded).body
    outcome.symbols.names = ((tokens.filter Token.isSymbol).map Token.text).eraseDups ∧
      (∀ name token, (name, token) ∈ outcome.symbols.entries →
        LastNamed tokens name token ∧
          Text.slice outcome.expanded token.first token.last = name) ∧
      (outcome.faults.filter fun fault => fault.pass == 4).map Fault.record =
        (tokens.filter Token.isVariable).map (fun token =>
          ⟨.var, 4, s!"Variable not defined ({String.ofList token.text})"⟩) ∧
      ∀ token ∈ tokens, token.isVariable = true → token.text ∉ outcome.symbols.names := by
  intro outcome tokens
  have hrun : runUnder registries config chain document =
      Run.ofFormula (resolver registries config chain) registries.screenings config raw := by
    rw [runUnder, Run.block_ofDocument] at hfound
    rw [runUnder, Run.ofDocument, hfound]
  obtain ⟨-, -, -, -, hundefined⟩ :=
    Run.faultsOf_ofInlined registries.screenings config raw (Stage.pass_of_mem_clean config raw)
      (Stage.pass_of_mem_inline config (resolver registries config chain) (Stage.clean config raw))
  -- the table is made from the tokens of the source that pass 3 leaves
  have hsymbols : outcome.symbols = .ofTokens tokens := by
    simp only [tokens, outcome, hrun]
    exact Run.symbols_ofInlined
  have hdescribes := SymbolTable.describes_ofTokens tokens
  rw [hsymbols]
  refine ⟨hdescribes.names_eq, ?_, ?_, ?_⟩
  · intro name token hentry
    have hlast := hdescribes.last name token hentry
    exact ⟨hlast, hlast.slice_eq⟩
  · have hreported : (outcome.faults.filter fun fault => fault.pass == 4) =
        (SymbolTable.undefinedVariables tokens).map Fault.undefined := by
      rw [Run.ofInlined_eq] at hundefined
      simp only [tokens, outcome, hrun]
      rw [Run.ofFormula, Run.ofInlined_eq]
      exact hundefined
    rw [hreported, SymbolTable.undefinedVariables, List.map_map, List.map_map]
    rfl
  · intro token htoken hvariable hname
    rw [hdescribes.names_eq, List.mem_eraseDups] at hname
    obtain ⟨symbol, hsymbol, htext⟩ := List.mem_map.mp hname
    obtain ⟨hsymbol, hkind⟩ := List.mem_filter.mp hsymbol
    exact text_ne_of_isVariable htoken hvariable hsymbol hkind htext.symm

/-- A symbol that occurs twice, the reserved word, a variable that nothing defines, and a summation
that pass 3 makes a symbol of. -/
theorem symbols_runUnder_of_leftover :
    let registries : Registries :=
      { kpis := none, screenings := some ⟨[⟨['C'], [], none, 1, ['s']⟩]⟩ }
    let document := "eNB Counter Method: BEGIN B+$w*A TO B-∑C(1) END".toList
    let outcome := (runUnder registries .default [] document).outcome
    outcome.block = .formula "B+$w*A TO B-∑C(1)".toList ∧
      outcome.expanded = "B+$w*A TO B-(C.s)".toList ∧
      outcome.symbols.names = [['B'], ['A'], "C.s".toList] ∧
      (['B'], ⟨.symbol, ['B'], 10, 10⟩) ∈ outcome.symbols.entries ∧
      Text.slice outcome.expanded 10 10 = ['B'] ∧
      (outcome.faults.filter fun fault => fault.pass == 4).map Fault.record =
        [⟨.var, 4, "Variable not defined ($w)"⟩] ∧
      "$w".toList ∉ outcome.symbols.names := by
  intro registries document outcome
  have hfound : outcome.block = .formula "B+$w*A TO B-∑C(1)".toList := by decide +kernel
  have hexpanded : outcome.expanded = "B+$w*A TO B-(C.s)".toList := by decide +kernel
  obtain ⟨hnames, hlast, hreported, hapart⟩ :=
    symbols_runUnder registries .default [] document hfound
  have hentry : (['B'], ⟨.symbol, ['B'], 10, 10⟩) ∈ outcome.symbols.entries := by decide +kernel
  have hbody : lex Config.default.mode outcome.expanded =
      lex .strict "B+$w*A TO B-(C.s)".toList := by
    rw [hexpanded]
    rfl
  have hleft : (lex .strict "B+$w*A TO B-(C.s)".toList).body.filter Token.isVariable =
      [⟨.var, "$w".toList, 2, 3⟩] := by decide
  refine ⟨hfound, hexpanded, hnames.trans ?_, hentry, (hlast _ _ hentry).2, hreported.trans ?_,
    hapart ⟨.var, "$w".toList, 2, 3⟩ ?_ rfl⟩
  · rw [hbody]
    decide
  · rw [hbody, hleft]
    rfl
  · rw [hbody]
    decide

end CounterFormula
