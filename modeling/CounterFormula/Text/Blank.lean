import CounterFormula.Text.Basic

/-!
# Text — Blank

The blank characters are those with the Unicode property `White_Space`, U+00A0 among them.
Tokens are separated by them and formula blocks are trimmed of them.

* `isBlank_of_isWhitespace`: the class contains the core library's white space.
-/

namespace CounterFormula.Text

/-- `White_Space`: the 25 blank characters. -/
def isBlank (c : Char) : Bool :=
  let n := c.toNat
  (0x09 ≤ n && n ≤ 0x0D) || n == 0x20 || n == 0x85 || n == 0xA0 || n == 0x1680 ||
    (0x2000 ≤ n && n ≤ 0x200A) || n == 0x2028 || n == 0x2029 || n == 0x202F || n == 0x205F ||
    n == 0x3000

theorem isBlank_of_isWhitespace {c : Char} (h : c.isWhitespace = true) : isBlank c = true := by
  simp only [Char.isWhitespace, Bool.or_eq_true, decide_eq_true_eq] at h
  rcases h with ((rfl | rfl) | rfl) | rfl <;> rfl

/-- `text` without the blanks it begins with. -/
def trimStart (text : Text) : Text :=
  text.dropWhile isBlank

/-- `text` without the blanks it ends with. -/
def trimEnd (text : Text) : Text :=
  (text.reverse.dropWhile isBlank).reverse

/-- `text` without the blanks at either end. -/
def trim (text : Text) : Text :=
  trimEnd (trimStart text)

end CounterFormula.Text
