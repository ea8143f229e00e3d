import CounterFormula.Block
import CounterFormula.Token.Lexer

/-!
# Reference

References to the formulas of other KPIs.  A reference is written
`Formula://EnbCounterMethod/<kpi>)` or `Formula://EnbCounterMethod/<kpi>/<$variable>)`; the
closing parenthesis belongs to the formula around it.

`substitute` works through the tokens from the right, so that no replacement moves a reference
that is still to be reached, and threads the resolver's state through.
-/

namespace CounterFormula

/-- A KPI that is referred to, and which of its variables, if only one is meant. -/
structure Reference where
  kpi : Text
  /-- The variable's name with its sigil. -/
  wanted : Option Text
  deriving DecidableEq, Repr

/-- Why a reference gives no text, or gives text that is not to be trusted. -/
inductive ReferenceFault where
  | unknownKind (kind : Text)
  | noSlash
  | noKpi
  | noClosing
  | noVariable
  /-- The KPI is on the chain of KPIs that are being resolved. -/
  | cyclic (chain : List Text) (kpi : Text)
  | unknownKpi (kpi : Text)
  /-- The KPI's document has no formula block. -/
  | unusable (kpi : Text) (block : Block)
  /-- The run over the KPI's document met faults. -/
  | faulty (kpi : Text)
  /-- A resolver's own reason. -/
  | refused (reason : Text)
  deriving DecidableEq, Repr

namespace Reference

/-- How every reference begins. -/
def scheme : Text := "Formula://".toList

/-- The symbol that a reference begins with. -/
def head : Text := "Formula".toList

/-- The only kind of formula that can be referred to. -/
def kind : Text := "EnbCounterMethod".toList

/-- The text that stands in for a reference that cannot be resolved. -/
def placeholder (reference : Reference) : Text :=
  "Formula_for_KPI_".toList ++ reference.kpi ++ ['_'] ++ reference.wanted.getD []

/-- The arrow between the ids of a chain. -/
def arrow : Text := " → ".toList

end Reference

def ReferenceFault.message : ReferenceFault → String
  | unknownKind kind => s!"Unrecognized Formula type: {String.ofList kind}"
  | noSlash => "Expected slash after Formula://EnbCounterMethod"
  | noKpi => "Expected KPI ID after Formula://EnbCounterMethod/"
  | noClosing => "Expected closing paren in Formula reference"
  | noVariable => "Expected variable name at end of Formula reference"
  | cyclic chain kpi =>
    s!"Cyclic Formula reference: {String.ofList (Text.join Reference.arrow (chain ++ [kpi]))}"
  | unknownKpi kpi => s!"Could not resolve KPI_ID in Formula reference: {String.ofList kpi}"
  | unusable kpi block =>
    s!"Referenced formula {String.ofList kpi} has no usable formula block: {block.status}"
  | faulty kpi => s!"Referenced formula {String.ofList kpi} has errors."
  | refused reason => String.ofList reason

namespace Reference

/-- Whether `source` mentions a reference at all, in any case. -/
def mentionedIn (source : Text) : Bool :=
  Text.mentions (Text.lowerAscii source) (Text.lowerAscii scheme)

/-! ### Reading -/

/-- The tokens after a reference head, if `tokens` begin with one. -/
def afterHead? : List Token → Option (List Token)
  | name :: colon :: slash :: slash' :: rest =>
    if name.isNamed head && colon.isOperator ':' && slash.isOperator '/' &&
        slash'.isOperator '/' then
      some rest
    else none
  | _ => none

/-- The first token, if it is as wanted, and the tokens after it. -/
def expect (wanted : Token → Bool) (fault : ReferenceFault) :
    List Token → Except ReferenceFault (Token × List Token)
  | token :: rest => if wanted token then .ok (token, rest) else .error fault
  | [] => .error fault

/-- The text of the first token; empty at the end. -/
def firstText : List Token → Text
  | token :: _ => token.text
  | [] => []

/-- The reference whose path `tokens` begin with, and its last token, the one before the
closing parenthesis. -/
def readPath (tokens : List Token) : Except ReferenceFault (Reference × Token) := do
  let (_, rest) ← expect (·.isNamed kind) (.unknownKind (firstText tokens)) tokens
  let (_, rest) ← expect (·.isOperator '/') .noSlash rest
  let (kpi, rest) ← expect Token.isSymbol .noKpi rest
  match expect (·.isOperator ')') .noClosing rest with
  | .ok _ => return (⟨kpi.text, none⟩, kpi)
  | .error _ =>
    let (_, rest) ← expect (·.isOperator '/') .noClosing rest
    let (wanted, rest) ← expect Token.isVariable .noVariable rest
    let _ ← expect (·.isOperator ')') .noClosing rest
    return (⟨kpi.text, some wanted.text⟩, wanted)

/-! ### Substituting -/

/-- How references are answered: what a well-formed one stands for, and what becomes of the
fault of a malformed one. -/
structure Resolver (σ : Type) where
  resolve : Reference → σ → Text × σ
  report : ReferenceFault → σ → σ

/-- `source` with the well-formed references among `tokens` replaced by what the resolver
answers, the last one first; a malformed one is reported and stays. -/
def substitute {σ : Type} (resolver : Resolver σ) (source : Text) :
    List Token → σ → Text × σ
  | [], state => (source, state)
  | token :: rest, state =>
    let (text, state) := substitute resolver source rest state
    match afterHead? (token :: rest) with
    | none => (text, state)
    | some path =>
      match readPath path with
      | .error fault => (text, resolver.report fault state)
      | .ok (reference, last) =>
        let (new, state) := resolver.resolve reference state
        (Text.splice text token.first last.last new, state)

end Reference

end CounterFormula
