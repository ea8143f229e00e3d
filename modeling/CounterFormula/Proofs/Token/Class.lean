import CounterFormula.Token.Basic

/-!
# Token — Class

A token is of one class and has one text, so it passes at most one of the tests that readers
make.
-/

namespace CounterFormula.Token

variable {token : Token} {sign other : Char} {name word : Text}

theorem kind_of_isOperator (h : token.isOperator sign = true) :
    token.kind = .operator ∧ token.text = [sign] := by
  simpa only [isOperator, Bool.and_eq_true, beq_iff_eq] using h

theorem kind_of_isSymbol (h : token.isSymbol = true) : token.kind = .symbol := by
  simpa only [isSymbol, beq_iff_eq] using h

theorem kind_of_isVariable (h : token.isVariable = true) : token.kind = .var := by
  simpa only [isVariable, beq_iff_eq] using h

theorem text_of_isNamed (h : token.isNamed name = true) : token.text = name := by
  rw [isNamed, Bool.and_eq_true, beq_iff_eq] at h
  exact h.2

theorem not_isOperator_of_ne (h : token.isOperator sign = true) (hne : sign ≠ other) :
    token.isOperator other = false := by
  obtain ⟨-, htext⟩ := kind_of_isOperator h
  rw [isOperator, htext, Bool.and_eq_false_iff]
  exact .inr (beq_eq_false_iff_ne.mpr fun heq => hne (List.cons.inj heq).1)

theorem not_isOperator_of_isSymbol (h : token.isSymbol = true) (sign : Char) :
    token.isOperator sign = false := by
  rw [isOperator, kind_of_isSymbol h]
  rfl

theorem not_isNamed_of_isOperator (h : token.isOperator sign = true) (name : Text) :
    token.isNamed name = false := by
  rw [isNamed, isSymbol, (kind_of_isOperator h).1]
  rfl

theorem not_isNamed_of_isVariable (h : token.isVariable = true) (name : Text) :
    token.isNamed name = false := by
  rw [isNamed, isSymbol, kind_of_isVariable h]
  rfl

theorem not_isNamed_of_ne (h : token.isNamed name = true) (hne : name ≠ word) :
    token.isNamed word = false := by
  rw [isNamed, text_of_isNamed h, Bool.and_eq_false_iff]
  exact .inr (beq_eq_false_iff_ne.mpr hne)

/-! ### Tokens of one class and text -/

/-- What of a token does not depend on where it stands: its class and its text. -/
def spelling (token : Token) : TokenClass × Text :=
  (token.kind, token.text)

variable {token' : Token}

theorem isOperator_congr (hkind : token.kind = token'.kind) (htext : token.text = token'.text)
    (sign : Char) : token.isOperator sign = token'.isOperator sign := by
  rw [isOperator, isOperator, hkind, htext]

theorem isSymbol_congr (hkind : token.kind = token'.kind) : token.isSymbol = token'.isSymbol := by
  rw [isSymbol, isSymbol, hkind]

theorem isNamed_congr (hkind : token.kind = token'.kind) (htext : token.text = token'.text)
    (name : Text) : token.isNamed name = token'.isNamed name := by
  rw [isNamed, isNamed, isSymbol_congr hkind, htext]

end CounterFormula.Token
