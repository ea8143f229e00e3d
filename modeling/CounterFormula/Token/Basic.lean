import CounterFormula.Text.Basic

/-!
# Token

A token is a run of characters of one class, with the offsets of its first and last character
in the text it was cut from.
-/

namespace CounterFormula

/-- What kind of run a token is; `stop` marks the end of the text. -/
inductive TokenClass where
  | symbol
  | var
  | operator
  | number
  | stop
  | error
  deriving DecidableEq, Repr

namespace TokenClass

/-- The class as a data file spells it. -/
def word : TokenClass → String
  | symbol => "symbol"
  | var => "variable"
  | operator => "operator"
  | number => "number"
  | stop => "end"
  | error => "error"

/-- The class as a token listing shows it. -/
def label : TokenClass → String
  | symbol => "SYMBOL"
  | var => "VARIABLE"
  | operator => "OPERATOR"
  | number => "NUMBER"
  | stop => "END"
  | error => "ERROR"

end TokenClass

/-- A run of characters of one class.  `text` is what the run stands for, which for a reserved
spelling is not the run itself. -/
structure Token where
  kind : TokenClass
  text : Text
  /-- Offset of the first character. -/
  first : Nat
  /-- Offset of the last character, inclusive. -/
  last : Nat
  deriving DecidableEq, Repr

namespace Token

/-- The token of class `kind` that `text` makes when it is read at offset `start`. -/
def ofRun (kind : TokenClass) (start : Nat) (text : Text) : Token :=
  ⟨kind, text, start, start + text.length - 1⟩

/-- The mark that follows the last token of a text of `extent` characters. -/
def stop (extent : Nat) : Token :=
  ⟨.stop, [], extent, extent⟩

def isSymbol (token : Token) : Bool :=
  token.kind == .symbol

def isVariable (token : Token) : Bool :=
  token.kind == .var

def isNumber (token : Token) : Bool :=
  token.kind == .number

/-- Whether the token is the operator `sign`. -/
def isOperator (token : Token) (sign : Char) : Bool :=
  token.kind == .operator && token.text == [sign]

/-- Whether the token is the symbol spelled `name`. -/
def isNamed (token : Token) (name : Text) : Bool :=
  token.isSymbol && token.text == name

/-- One line of a token listing. -/
def line (token : Token) : String :=
  s!"{token.kind.label} -> {String.ofList token.text} [{token.first}, {token.last}]\n"

end Token

end CounterFormula
