import CounterFormula.Clean.Glyph
import CounterFormula.Clean.Rules

/-!
# Clean

Undoing what a word processor did to a formula: typographic characters are folded once, then
the rules are applied until they change nothing.

* `strip_settle`: the outcome is stable under every rule.
-/

namespace CounterFormula

namespace Clean

/-- `text` stripped until nothing changes.  Each round but the last removes a character. -/
def settle (text : Text) : Text :=
  if strip text = text then text else settle (strip text)
termination_by text.length
decreasing_by
  rename_i h
  exact Nat.lt_of_not_le fun hle => h ((strip_sublist text).eq_of_length_le hle)

theorem strip_settle (text : Text) : strip (settle text) = settle text := by
  fun_induction settle text with
  | case1 text h => exact h
  | case2 text _ ih => exact ih

/-- `text` with the summation glyph written as the plain sign. -/
def plainSigns (text : Text) : Text :=
  Text.replace [Lexer.summationGlyph] [Lexer.summationSign] text

/-- `text` with the plain summation sign written as the glyph, as a reader is shown it. -/
def displayed (text : Text) : Text :=
  Text.replace [Lexer.summationSign] [Lexer.summationGlyph] text

end Clean

/-- The formula that a document's raw formula text stands for. -/
def clean (encoding : Encoding) (raw : Text) : Text :=
  Clean.settle (Clean.transliterate encoding (Clean.plainSigns raw))

namespace Clean

/-- Whether a hash mark is left: the operator that belongs before it is missing. -/
def hasStrayHash (cleaned : Text) : Bool :=
  cleaned.contains '#'

end Clean

end CounterFormula
