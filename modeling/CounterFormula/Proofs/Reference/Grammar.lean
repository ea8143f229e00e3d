import CounterFormula.Proofs.Token.Class
import CounterFormula.Proofs.Token.Order
import CounterFormula.Reference

/-!
# Reference — Grammar

How references are written, as a grammar of tokens.  A *head* is the symbol `Formula`, a colon and
two slashes.  The *path* behind it is the kind of formula, a slash, the id of a KPI and, for one
variable, a slash and its name; a closing parenthesis follows it.  A path that is not `Spelled` so
is `Misspelled` at the first token that does not fit, which is the fault that is reported.

An *occurrence* is a head with what is made of it: a well-formed reference, which extends from its
head to the token before its closing parenthesis, or a malformed one, of which only the four tokens
of the head count.

* `readPath_eq_ok_iff`, `readPath_eq_error_iff`: reading a path follows the grammar, both ways.
-/

namespace CounterFormula.Reference

variable {path tokens rest : List Token} {reference : Reference} {last token : Token}
  {fault : ReferenceFault} {wanted : Token → Bool}

/-! ### Paths -/

/-- `Spelled path reference last rest`: the tokens `path`, up to a closing parenthesis, spell the
path of `reference`.  The token before the parenthesis is `last`; the parenthesis and what
follows it are `rest`. -/
inductive Spelled : List Token → Reference → Token → List Token → Prop where
  | formula {sort slash kpi closing : Token} {more : List Token}
      (hsort : sort.isNamed Reference.kind = true) (hslash : slash.isOperator '/' = true)
      (hkpi : kpi.isSymbol = true) (hclosing : closing.isOperator ')' = true) :
      Spelled (sort :: slash :: kpi :: closing :: more) ⟨kpi.text, none⟩ kpi (closing :: more)
  | value {sort slash kpi slash' name closing : Token} {more : List Token}
      (hsort : sort.isNamed Reference.kind = true) (hslash : slash.isOperator '/' = true)
      (hkpi : kpi.isSymbol = true) (hslash' : slash'.isOperator '/' = true)
      (hname : name.isVariable = true) (hclosing : closing.isOperator ')' = true) :
      Spelled (sort :: slash :: kpi :: slash' :: name :: closing :: more)
        ⟨kpi.text, some name.text⟩ name (closing :: more)

/-- The first of `tokens` is there and is as `wanted`. -/
def Begins (wanted : Token → Bool) (tokens : List Token) : Prop :=
  tokens.head?.any wanted = true

/-- `Misspelled path fault`: the tokens `path` begin as a path does, up to a token that does not
fit or to their end, and `fault` says what is missing there. -/
inductive Misspelled : List Token → ReferenceFault → Prop where
  | kind {path : List Token} (h : ¬ Begins (·.isNamed Reference.kind) path) :
      Misspelled path (.unknownKind (firstText path))
  | noSlash {sort : Token} {rest : List Token} (hsort : sort.isNamed Reference.kind = true)
      (h : ¬ Begins (·.isOperator '/') rest) : Misspelled (sort :: rest) .noSlash
  | noKpi {sort slash : Token} {rest : List Token} (hsort : sort.isNamed Reference.kind = true)
      (hslash : slash.isOperator '/' = true) (h : ¬ Begins Token.isSymbol rest) :
      Misspelled (sort :: slash :: rest) .noKpi
  /-- Neither the end nor a variable follows the id. -/
  | noClosing {sort slash kpi : Token} {rest : List Token}
      (hsort : sort.isNamed Reference.kind = true) (hslash : slash.isOperator '/' = true)
      (hkpi : kpi.isSymbol = true) (hclosing : ¬ Begins (·.isOperator ')') rest)
      (hslash' : ¬ Begins (·.isOperator '/') rest) :
      Misspelled (sort :: slash :: kpi :: rest) .noClosing
  | noVariable {sort slash kpi slash' : Token} {rest : List Token}
      (hsort : sort.isNamed Reference.kind = true) (hslash : slash.isOperator '/' = true)
      (hkpi : kpi.isSymbol = true) (hslash' : slash'.isOperator '/' = true)
      (h : ¬ Begins Token.isVariable rest) :
      Misspelled (sort :: slash :: kpi :: slash' :: rest) .noVariable
  /-- The end does not follow the variable. -/
  | unclosed {sort slash kpi slash' name : Token} {rest : List Token}
      (hsort : sort.isNamed Reference.kind = true) (hslash : slash.isOperator '/' = true)
      (hkpi : kpi.isSymbol = true) (hslash' : slash'.isOperator '/' = true)
      (hname : name.isVariable = true) (h : ¬ Begins (·.isOperator ')') rest) :
      Misspelled (sort :: slash :: kpi :: slash' :: name :: rest) .noClosing

/-- A well-formed path ends with the token before its closing parenthesis. -/
theorem Spelled.exists_eq_append (h : Spelled path reference last rest) :
    ∃ before, path = before ++ last :: rest := by
  cases h with
  | @formula sort slash _ _ _ => exact ⟨[sort, slash], rfl⟩
  | @value sort slash kpi slash' _ _ _ => exact ⟨[sort, slash, kpi, slash'], rfl⟩

/-! ### Occurrences -/

/-- `Headed tokens name slash path`: among `tokens` there is a head, from `name` to `slash`, and
`path` follows it. -/
def Headed (tokens : List Token) (name slash : Token) (path : List Token) : Prop :=
  ∃ before colon slash', tokens = before ++ name :: colon :: slash' :: slash :: path ∧
    name.isNamed head = true ∧ colon.isOperator ':' = true ∧ slash'.isOperator '/' = true ∧
      slash.isOperator '/' = true

/-- A reference head among the tokens of a formula, with what is made of it. -/
inductive Occurrence where
  /-- A well-formed reference, from its head to the token before its closing parenthesis. -/
  | wellFormed (reference : Reference) (span : Span)
  /-- A head that no well-formed path follows, and the span of its four tokens. -/
  | malformed (fault : ReferenceFault) (span : Span)
  deriving DecidableEq, Repr

/-- What the occurrence extends over. -/
def Occurrence.span : Occurrence → Span
  | wellFormed _ span | malformed _ span => span

/-- What occurs among `tokens`. -/
inductive Occurs (tokens : List Token) : Occurrence → Prop where
  | wellFormed {name slash last : Token} {path rest : List Token} {reference : Reference}
      (hhead : Headed tokens name slash path) (hpath : Spelled path reference last rest) :
      Occurs tokens (.wellFormed reference ⟨name.first, last.last⟩)
  | malformed {name slash : Token} {path : List Token} {fault : ReferenceFault}
      (hhead : Headed tokens name slash path) (hpath : Misspelled path fault) :
      Occurs tokens (.malformed fault ⟨name.first, slash.last⟩)

theorem Headed.mem (h : Headed tokens token last path) : token ∈ tokens := by
  obtain ⟨before, colon, slash', rfl, -⟩ := h
  exact List.mem_append_right before List.mem_cons_self

theorem Headed.isNamed (h : Headed tokens token last path) : token.isNamed head = true := by
  obtain ⟨_, _, _, -, hname, -⟩ := h
  exact hname

theorem Headed.suffix (h : Headed tokens token last path) : path <:+ tokens := by
  obtain ⟨before, colon, slash', rfl, -⟩ := h
  exact ⟨before ++ [token, colon, slash', last], by simp⟩

/-- The id of a well-formed reference is one of the tokens. -/
theorem Occurs.exists_symbol_of_kpi {span : Span}
    (h : Occurs tokens (.wellFormed reference span)) :
    ∃ token ∈ tokens, token.isSymbol = true ∧ token.text = reference.kpi := by
  cases h with
  | wellFormed hhead hpath =>
      cases hpath with
      | formula _ _ hkpi _ => exact ⟨_, hhead.suffix.subset (by simp), hkpi, rfl⟩
      | value _ _ hkpi _ _ _ => exact ⟨_, hhead.suffix.subset (by simp), hkpi, rfl⟩

/-- The variable of a well-formed reference is one of the tokens. -/
theorem Occurs.exists_variable_of_wanted {span : Span} {wanted : Text}
    (h : Occurs tokens (.wellFormed reference span)) (hwanted : reference.wanted = some wanted) :
    ∃ token ∈ tokens, token.isVariable = true ∧ token.text = wanted := by
  cases h with
  | wellFormed hhead hpath =>
      cases hpath with
      | formula => cases hwanted
      | value _ _ _ _ hname _ =>
          exact ⟨_, hhead.suffix.subset (by simp), hname, Option.some.inj hwanted⟩

/-! ### Reading a path -/

theorem expect_cons (wanted : Token → Bool) (fault : ReferenceFault) (token : Token)
    (rest : List Token) :
    expect wanted fault (token :: rest) =
      if wanted token then .ok (token, rest) else .error fault :=
  rfl

theorem expect_eq_ok_iff :
    expect wanted fault tokens = .ok (token, rest) ↔
      tokens = token :: rest ∧ wanted token = true := by
  cases tokens with
  | nil => simp [expect]
  | cons first more =>
      rw [expect]
      split
      · rename_i hwanted
        constructor
        · intro h
          obtain ⟨rfl, rfl⟩ := Prod.mk.inj (Except.ok.inj h)
          exact ⟨rfl, hwanted⟩
        · rintro ⟨h, -⟩
          obtain ⟨rfl, rfl⟩ := List.cons.inj h
          rfl
      · rename_i hwanted
        refine ⟨fun h => (nomatch h), ?_⟩
        rintro ⟨h, htoken⟩
        obtain ⟨rfl, rfl⟩ := List.cons.inj h
        exact absurd htoken hwanted

theorem expect_eq_error_iff {found : ReferenceFault} :
    expect wanted fault tokens = .error found ↔ ¬ Begins wanted tokens ∧ fault = found := by
  cases tokens with
  | nil => simp [expect, Begins]
  | cons first more =>
      rw [expect]
      split
      · rename_i hwanted
        exact iff_of_false nofun fun h => h.1 hwanted
      · rename_i hwanted
        rw [Except.error.injEq]
        exact (and_iff_right hwanted).symm

/-- What a computation that may fail binds has succeeded. -/
theorem bind_eq_ok {ε α β : Type} {x : Except ε α} {f : α → Except ε β} {b : β}
    (h : x.bind f = .ok b) : ∃ a, x = .ok a ∧ f a = .ok b := by
  cases x with
  | error e => cases h
  | ok a => exact ⟨a, rfl, h⟩

theorem bind_eq_error {ε α β : Type} {x : Except ε α} {f : α → Except ε β} {e : ε}
    (h : x.bind f = .error e) : x = .error e ∨ ∃ a, x = .ok a ∧ f a = .error e := by
  cases x with
  | error e' => exact .inl (congrArg Except.error (Except.error.inj h))
  | ok a => exact .inr ⟨a, rfl, h⟩

theorem spelled_of_readPath (h : readPath path = .ok (reference, last)) :
    ∃ rest, Spelled path reference last rest := by
  obtain ⟨⟨sort, afterSort⟩, esort, h₁⟩ := bind_eq_ok h
  obtain ⟨⟨slash, afterSlash⟩, eslash, h₂⟩ := bind_eq_ok h₁
  obtain ⟨⟨kpi, afterKpi⟩, ekpi, h₃⟩ := bind_eq_ok h₂
  obtain ⟨rfl, hsort⟩ := expect_eq_ok_iff.mp esort
  obtain ⟨rfl, hslash⟩ := expect_eq_ok_iff.mp eslash
  obtain ⟨rfl, hkpi⟩ := expect_eq_ok_iff.mp ekpi
  dsimp only at h₃
  -- a closing parenthesis directly behind the id, or a variable before it
  split at h₃
  · rename_i found eclosing
    obtain ⟨closing, more⟩ := found
    obtain ⟨rfl, hclosing⟩ := expect_eq_ok_iff.mp eclosing
    obtain ⟨rfl, rfl⟩ := Prod.mk.inj (Except.ok.inj h₃)
    exact ⟨_, .formula hsort hslash hkpi hclosing⟩
  · obtain ⟨⟨slash', afterSlash'⟩, eslash', h₄⟩ := bind_eq_ok h₃
    obtain ⟨⟨name, afterName⟩, ename, h₅⟩ := bind_eq_ok h₄
    obtain ⟨⟨closing, more⟩, eclosing, h₆⟩ := bind_eq_ok h₅
    obtain ⟨rfl, hslash'⟩ := expect_eq_ok_iff.mp eslash'
    obtain ⟨rfl, hname⟩ := expect_eq_ok_iff.mp ename
    obtain ⟨rfl, hclosing⟩ := expect_eq_ok_iff.mp eclosing
    obtain ⟨rfl, rfl⟩ := Prod.mk.inj (Except.ok.inj h₆)
    exact ⟨_, .value hsort hslash hkpi hslash' hname hclosing⟩

theorem readPath_of_spelled (h : Spelled path reference last rest) :
    readPath path = .ok (reference, last) := by
  cases h with
  | formula hsort hslash hkpi hclosing =>
      simp [readPath, bind, Except.bind, pure, Except.pure, expect, hsort, hslash, hkpi, hclosing]
  | value hsort hslash hkpi hslash' hname hclosing =>
      simp [readPath, bind, Except.bind, pure, Except.pure, expect, hsort, hslash, hkpi, hslash',
        Token.not_isOperator_of_ne hslash' (show '/' ≠ ')' by decide), hname, hclosing]

/-- **Reading a path** accepts exactly the well-formed ones. -/
theorem readPath_eq_ok_iff :
    readPath path = .ok (reference, last) ↔ ∃ rest, Spelled path reference last rest := by
  refine ⟨spelled_of_readPath, ?_⟩
  rintro ⟨_, h⟩
  exact readPath_of_spelled h

theorem misspelled_of_readPath (h : readPath path = .error fault) : Misspelled path fault := by
  rcases bind_eq_error h with h | ⟨⟨sort, afterSort⟩, esort, h₁⟩
  · obtain ⟨hsort, rfl⟩ := expect_eq_error_iff.mp h
    exact .kind hsort
  obtain ⟨rfl, hsort⟩ := expect_eq_ok_iff.mp esort
  rcases bind_eq_error h₁ with h | ⟨⟨slash, afterSlash⟩, eslash, h₂⟩
  · obtain ⟨hslash, rfl⟩ := expect_eq_error_iff.mp h
    exact .noSlash hsort hslash
  obtain ⟨rfl, hslash⟩ := expect_eq_ok_iff.mp eslash
  rcases bind_eq_error h₂ with h | ⟨⟨kpi, afterKpi⟩, ekpi, h₃⟩
  · obtain ⟨hkpi, rfl⟩ := expect_eq_error_iff.mp h
    exact .noKpi hsort hslash hkpi
  obtain ⟨rfl, hkpi⟩ := expect_eq_ok_iff.mp ekpi
  dsimp only at h₃
  split at h₃
  · cases h₃
  rename_i eclosing
  obtain ⟨hclosing, -⟩ := expect_eq_error_iff.mp eclosing
  rcases bind_eq_error h₃ with h | ⟨⟨slash', afterSlash'⟩, eslash', h₄⟩
  · obtain ⟨hslash', rfl⟩ := expect_eq_error_iff.mp h
    exact .noClosing hsort hslash hkpi hclosing hslash'
  obtain ⟨rfl, hslash'⟩ := expect_eq_ok_iff.mp eslash'
  rcases bind_eq_error h₄ with h | ⟨⟨name, afterName⟩, ename, h₅⟩
  · obtain ⟨hname, rfl⟩ := expect_eq_error_iff.mp h
    exact .noVariable hsort hslash hkpi hslash' hname
  obtain ⟨rfl, hname⟩ := expect_eq_ok_iff.mp ename
  rcases bind_eq_error h₅ with h | ⟨⟨closing, more⟩, -, h₆⟩
  · obtain ⟨hunclosed, rfl⟩ := expect_eq_error_iff.mp h
    exact .unclosed hsort hslash hkpi hslash' hname hunclosed
  · cases h₆

theorem readPath_of_misspelled (h : Misspelled path fault) : readPath path = .error fault := by
  have hmissing {wanted : Token → Bool} {tokens : List Token} (h : ¬ Begins wanted tokens)
      (fault : ReferenceFault) : expect wanted fault tokens = .error fault :=
    expect_eq_error_iff.mpr ⟨h, rfl⟩
  cases h with
  | kind h => simp [readPath, bind, Except.bind, hmissing h]
  | noSlash hsort h => simp [readPath, bind, Except.bind, expect_cons, hsort, hmissing h]
  | noKpi hsort hslash h =>
      simp [readPath, bind, Except.bind, expect_cons, hsort, hslash, hmissing h]
  | noClosing hsort hslash hkpi hclosing hslash' =>
      simp [readPath, bind, Except.bind, expect_cons, hsort, hslash, hkpi, hmissing hclosing,
        hmissing hslash']
  | noVariable hsort hslash hkpi hslash' h =>
      simp [readPath, bind, Except.bind, expect_cons, hsort, hslash, hkpi, hslash',
        Token.not_isOperator_of_ne hslash' (show '/' ≠ ')' by decide), hmissing h]
  | unclosed hsort hslash hkpi hslash' hname h =>
      simp [readPath, bind, Except.bind, expect_cons, hsort, hslash, hkpi, hslash',
        Token.not_isOperator_of_ne hslash' (show '/' ≠ ')' by decide), hname, hmissing h]

/-- **What reading finds amiss** is just what is misspelled. -/
theorem readPath_eq_error_iff : readPath path = .error fault ↔ Misspelled path fault :=
  ⟨misspelled_of_readPath, readPath_of_misspelled⟩

end CounterFormula.Reference
