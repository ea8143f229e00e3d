import CounterFormula.Text.Basic

/-!
# Clean — Erasure

A cleaning rule looks at a text from its beginning and, where it applies, says which
characters of what it read are kept.  Applied to a text it acts from the left and without
overlap; since it only ever erases, the outcome is a sublist of the text.

* `apply_sublist`: a rule only removes characters.
-/

namespace CounterFormula.Clean

/-- What a rule makes of the beginning of `text`: what it keeps of the part it read, and the
part it has not read. -/
structure Erasure (text : Text) where
  kept : Text
  rest : Text
  sublist : (kept ++ rest).Sublist text
  shorter : rest.length < text.length

/-- A rule applies to the beginning of some texts. -/
abbrev Rule := (text : Text) → Option (Erasure text)

namespace Rule

/-- `text` with `rule` applied from the left wherever it can be. -/
def apply (rule : Rule) : Text → Text
  | [] => []
  | c :: more =>
    match rule (c :: more) with
    | some erasure => erasure.kept ++ apply rule erasure.rest
    | none => c :: apply rule more
termination_by text => text.length
decreasing_by
  · exact erasure.shorter
  · simp

theorem apply_sublist (rule : Rule) (text : Text) : (rule.apply text).Sublist text := by
  fun_induction apply rule text with
  | case1 => exact .slnil
  | case2 c more erasure _ ih =>
    exact ((List.Sublist.refl erasure.kept).append ih).trans erasure.sublist
  | case3 c more _ ih => exact ih.cons_cons c

end Rule

end CounterFormula.Clean
