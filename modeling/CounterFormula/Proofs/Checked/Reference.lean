import CounterFormula.Reference
import CounterFormula.Proofs.Checked.Lexer

/-!
# Checked — Reference

The references among the tokens of a text, read by their indexes.  A reader looks a few tokens
ahead, and finds at the end the mark, which is none of the tokens that it looks for.  So the index
of a reference's last token is one of the tokens of the text.

* `pathAt_alike`: a path is read by index as `readPath` reads it, and ends at one of the tokens.
* `substitute?_eq`: no reference is left for want of a token.
-/

namespace CounterFormula.Checked

open Reference (Resolver afterHead? expect firstText readPath)

/-! ### Reading -/

/-- Whether the token at index `i`, if there is one, is the operator `sign`. -/
def operatorAt (tokens : List Token) (i : Nat) (sign : Char) : Bool :=
  tokens[i]?.any (·.isOperator sign)

/-- Whether a reference begins at index `i`. -/
def headAt? (tokens : List Token) (i : Nat) : Option Bool := do
  let name ← tokens[i]?
  some (name.isNamed Reference.head && operatorAt tokens (i + 1) ':' &&
    operatorAt tokens (i + 2) '/' && operatorAt tokens (i + 3) '/')

/-- The token at index `i`, if there is one and it is as wanted. -/
def expectAt (wanted : Token → Bool) (fault : ReferenceFault) (tokens : List Token) (i : Nat) :
    Except ReferenceFault Token :=
  match tokens[i]? with
  | some token => if wanted token then .ok token else .error fault
  | none => .error fault

/-- The reference whose path begins at index `kind`, and the index of its last token. -/
def pathAt (tokens : List Token) (kind : Nat) : Except ReferenceFault (Reference × Nat) := do
  let found := (tokens[kind]?.map Token.text).getD []
  let _ ← expectAt (·.isNamed Reference.kind) (.unknownKind found) tokens kind
  let _ ← expectAt (·.isOperator '/') .noSlash tokens (kind + 1)
  let kpi ← expectAt Token.isSymbol .noKpi tokens (kind + 2)
  match expectAt (·.isOperator ')') .noClosing tokens (kind + 3) with
  | .ok _ => return (⟨kpi.text, none⟩, kind + 2)
  | .error _ =>
    let _ ← expectAt (·.isOperator '/') .noClosing tokens (kind + 3)
    let wanted ← expectAt Token.isVariable .noVariable tokens (kind + 4)
    let _ ← expectAt (·.isOperator ')') .noClosing tokens (kind + 5)
    return (⟨kpi.text, some wanted.text⟩, kind + 4)

variable {stream rest : List Token} {extent i : Nat}

/-- Two readings fail with the same fault, or find what `R` relates. -/
inductive Alike {α β : Type} (R : α → β → Prop) :
    Except ReferenceFault α → Except ReferenceFault β → Prop where
  | error (fault : ReferenceFault) : Alike R (.error fault) (.error fault)
  | ok {a : α} {b : β} (h : R a b) : Alike R (.ok a) (.ok b)

theorem Alike.bind {α β γ δ : Type} {R : α → β → Prop} {S : γ → δ → Prop}
    {x : Except ReferenceFault α} {y : Except ReferenceFault β}
    {f : α → Except ReferenceFault γ} {g : β → Except ReferenceFault δ} (h : Alike R x y)
    (hnext : ∀ a b, R a b → Alike S (f a) (g b)) : Alike S (x.bind f) (y.bind g) := by
  cases h with
  | error fault => exact .error fault
  | ok h => exact hnext _ _ h

/-- The token at index `i` is the first of those found, and the others follow it up to the mark. -/
def FoundAt (stream : List Token) (extent i : Nat) (token : Token) (found : Token × List Token) :
    Prop :=
  found.1 = token ∧ stream[i]? = some token ∧ stream.drop (i + 1) = found.2 ++ [.stop extent]

/-- Where `rest` and the mark follow, a token is found by index just when it is the first of
`rest`. -/
theorem expectAt_alike {wanted : Token → Bool} (h : stream.drop i = rest ++ [.stop extent])
    (hstop : wanted (.stop extent) = false) (fault : ReferenceFault) :
    Alike (FoundAt stream extent i) (expectAt wanted fault stream i)
      (expect wanted fault rest) := by
  have hget : stream[i]? = (rest ++ [.stop extent])[0]? := getElem?_add_of_drop h 0
  cases rest with
  | nil =>
      have hat : expectAt wanted fault stream i = .error fault := by
        rw [expectAt, show stream[i]? = some (.stop extent) from hget]
        exact if_neg (by simp [hstop])
      rw [hat]
      exact .error fault
  | cons token more =>
      have htoken : stream[i]? = some token := hget
      rw [expectAt, htoken, expect]
      dsimp only
      split
      · exact .ok ⟨rfl, htoken, drop_succ_of_drop h⟩
      · exact .error fault

/-- **A path** is read by index as it is read, and its last token is one of the tokens. -/
theorem pathAt_alike {path : List Token} (h : stream.drop i = path ++ [.stop extent]) :
    Alike (fun found read => found.1 = read.1 ∧ stream[found.2]? = some read.2) (pathAt stream i)
      (readPath path) := by
  have hkind : (stream[i]?.map Token.text).getD [] = firstText path := by
    have hget : stream[i]? = (path ++ [.stop extent])[0]? := getElem?_add_of_drop h 0
    rw [hget]
    cases path <;> rfl
  rw [readPath, pathAt, hkind]
  refine (expectAt_alike h rfl _).bind ?_
  rintro _ ⟨_, path⟩ ⟨-, -, h⟩
  refine (expectAt_alike h rfl _).bind ?_
  rintro _ ⟨_, path⟩ ⟨-, -, h⟩
  refine (expectAt_alike h rfl _).bind ?_
  rintro kpi ⟨_, path⟩ ⟨rfl, hkpi, h⟩
  -- a closing parenthesis directly behind the id, or a variable before it
  have hclosing : Alike (FoundAt stream extent (i + 3))
      (expectAt (·.isOperator ')') .noClosing stream (i + 3))
      (expect (·.isOperator ')') .noClosing path) := expectAt_alike h rfl .noClosing
  dsimp only
  generalize expectAt (·.isOperator ')') .noClosing stream (i + 3) = found,
    expect (·.isOperator ')') .noClosing path = read at hclosing
  cases hclosing with
  | ok => exact .ok ⟨rfl, hkpi⟩
  | error =>
      refine (expectAt_alike h rfl _).bind ?_
      rintro _ ⟨_, path⟩ ⟨-, -, h⟩
      refine (expectAt_alike h rfl _).bind ?_
      rintro wanted ⟨_, path⟩ ⟨rfl, hwanted, h⟩
      refine (expectAt_alike h rfl _).bind ?_
      rintro _ ⟨_, path⟩ -
      exact .ok ⟨rfl, hwanted⟩

/-- **A head** is found by index, and its path follows. -/
theorem headAt?_eq {token : Token} (h : stream.drop i = token :: rest ++ [.stop extent]) :
    headAt? stream i = some (afterHead? (token :: rest)).isSome ∧
      ∀ path, afterHead? (token :: rest) = some path →
        stream.drop (i + 4) = path ++ [.stop extent] := by
  have hoperator (k : Nat) (sign : Char) :
      operatorAt stream (i + k) sign = operatorAt (token :: rest ++ [.stop extent]) k sign := by
    rw [operatorAt, operatorAt, getElem?_add_of_drop h k]
  have htoken : stream[i]? = some token := getElem?_of_drop h
  have hstop (sign : Char) : (Token.stop extent).isOperator sign = false := rfl
  rw [headAt?, htoken, hoperator, hoperator, hoperator]
  rcases rest with _ | ⟨colon, _ | ⟨slash, _ | ⟨slash', path⟩⟩⟩
  · exact ⟨by simp [operatorAt, hstop, afterHead?], nofun⟩
  · exact ⟨by simp [operatorAt, hstop, afterHead?], nofun⟩
  · exact ⟨by simp [operatorAt, hstop, afterHead?], nofun⟩
  · rw [afterHead?]
    refine ⟨?_, fun found hfound => ?_⟩
    · have hsome (b : Bool) : b = (if b = true then some path else none).isSome := by
        cases b <;> rfl
      exact congrArg some (hsome _)
    · split at hfound
      · obtain rfl := Option.some.inj hfound
        exact drop_add_of_drop [token, colon, slash, slash'] h
      · cases hfound

/-! ### Substituting -/

variable {σ : Type}

/-- What becomes of `state` at index `i`. -/
def substituteAt? (resolve? : Reference → σ → Option (Text × σ))
    (report : ReferenceFault → σ → σ) (tokens : List Token) (i : Nat) (state : Text × σ) :
    Option (Text × σ) := do
  if ← headAt? tokens i then
    match pathAt tokens (i + 4) with
    | .error fault => some (state.1, report fault state.2)
    | .ok (reference, index) =>
      let (new, log) ← resolve? reference state.2
      let first ← tokens[i]?
      let last ← tokens[index]?
      some (Text.splice state.1 first.first last.last new, log)
  else some state

/-- `source` with the references among `tokens` replaced. -/
def substitute? (resolve? : Reference → σ → Option (Text × σ))
    (report : ReferenceFault → σ → σ) (source : Text) (tokens : List Token) (state : σ) :
    Option (Text × σ) :=
  walk? (substituteAt? resolve? report tokens) tokens (source, state)

/-- **References are replaced** without a failure, when each of them is resolved without one. -/
theorem substitute?_eq {resolve? : Reference → σ → Option (Text × σ)} {resolver : Resolver σ}
    (hresolve : ∀ reference state,
      resolve? reference state = some (resolver.resolve reference state))
    (source : Text) (body : List Token) (extent : Nat) (state : σ) :
    substitute? resolve? resolver.report source (body ++ [.stop extent]) state =
      some (Reference.substitute resolver source body state) := by
  refine walk?_eq (fun rest => Reference.substitute resolver source rest state) body _
    fun i token rest h => ?_
  have hdrop := drop_concat h (Token.stop extent)
  have htoken : (body ++ [Token.stop extent])[i]? = some token := getElem?_of_drop hdrop
  obtain ⟨hhead, hpath⟩ := headAt?_eq hdrop
  rw [substituteAt?, hhead, Reference.substitute]
  cases hafter : afterHead? (token :: rest) with
  | none => rfl
  | some path =>
      have halike := pathAt_alike (hpath path hafter)
      dsimp only
      generalize pathAt (body ++ [Token.stop extent]) (i + 4) = found, readPath path = read
        at halike
      simp only [Option.bind_eq_bind, Option.bind_some, Option.isSome_some, if_true]
      cases halike with
      | error fault => rfl
      | @ok found read h =>
          obtain ⟨reference, last⟩ := read
          obtain ⟨_, index⟩ := found
          obtain ⟨rfl, hlast⟩ := h
          simp only [hresolve, htoken, hlast, Option.bind_some]

end CounterFormula.Checked
