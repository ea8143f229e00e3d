import CounterFormula.Text.Printable

/-!
# Text — Quoted

A text as a message quotes it: between double quotes, with a backslash before a quote or a
backslash, short escapes for tab, line feed, carriage return and NUL, and `\u{…}` with the code
point for any other character that does not show by itself.
-/

namespace CounterFormula.Text

/-- One character of a quoted text. -/
def quoteChar (c : Char) : Text :=
  match c with
  | '"' => ['\\', '"']
  | '\\' => ['\\', '\\']
  | '\t' => ['\\', 't']
  | '\n' => ['\\', 'n']
  | '\r' => ['\\', 'r']
  | '\x00' => ['\\', '0']
  | c =>
    if isPrintable c then [c]
    else ['\\', 'u', '\x7b'] ++ Nat.toDigits 16 c.toNat ++ ['\x7d']

/-- `text` between double quotes. -/
def quoted (text : Text) : Text :=
  ['"'] ++ text.flatMap quoteChar ++ ['"']

end CounterFormula.Text
