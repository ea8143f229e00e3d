import CounterFormula.Token.Basic

/-!
# Symbol table

The symbols of an expanded formula in the order in which they first occur, each with the token
of its last occurrence.
-/

namespace CounterFormula

/-- Symbol names with a token each, no name twice. -/
structure SymbolTable where
  entries : List (Text × Token)
  deriving DecidableEq, Repr

namespace SymbolTable

def empty : SymbolTable := ⟨[]⟩

def names (table : SymbolTable) : List Text :=
  table.entries.map Prod.fst

/-- `table` with `token` as the token of its text. -/
def record (table : SymbolTable) (token : Token) : SymbolTable :=
  if token.text ∈ table.names then
    ⟨table.entries.map fun entry => if entry.1 = token.text then (entry.1, token) else entry⟩
  else
    ⟨table.entries ++ [(token.text, token)]⟩

/-- The symbols among `tokens`. -/
def ofTokens (tokens : List Token) : SymbolTable :=
  (tokens.filter Token.isSymbol).foldl record empty

/-- The names of the variables among `tokens`, which nothing has replaced. -/
def undefinedVariables (tokens : List Token) : List Text :=
  (tokens.filter Token.isVariable).map Token.text

end SymbolTable

end CounterFormula
