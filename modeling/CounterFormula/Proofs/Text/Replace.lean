import CounterFormula.Text.Blank
import Mathlib.Data.List.Infix

/-!
# Text — Replace

Where the occurrences of a mark can lie.  A character that is not in the mark lies in none of them,
so that what stands before it and what stands behind it are replaced each on its own.

* `replace_append_cons`: a text is replaced in parts, cut at a character that is not in the mark.
* `replace_eq_self`: a text in which the mark does not occur stays as it is.
* `trimEnd_append_cons`: trimming the end of a text does not reach beyond a character that is not
  blank.
-/

namespace CounterFormula.Text

variable {c : Char} {mark new front back text : Text}

/-- An occurrence at the beginning ends before a character that is not in the mark. -/
theorem isPrefix_of_append_cons (hc : c ∉ mark) (h : mark <+: front ++ c :: back) :
    mark <+: front := by
  rcases List.prefix_or_prefix_of_prefix h (List.prefix_append front (c :: back)) with h | hfront
  · exact h
  obtain ⟨rest, rfl⟩ := hfront
  have hrest : rest <+: c :: back := (List.prefix_append_right_inj front).mp h
  cases rest with
  | nil => exact (List.append_nil front).symm ▸ List.prefix_refl front
  | cons d rest =>
      obtain ⟨rfl, -⟩ := List.cons_prefix_cons.mp hrest
      exact absurd (List.mem_append_right front List.mem_cons_self) hc

/-- **A character that is not in the mark** parts the occurrences. -/
theorem replace_append_cons (hc : c ∉ mark) :
    replace mark new (front ++ c :: back) =
      replace mark new front ++ c :: replace mark new back := by
  fun_induction replace mark new front with
  | case1 =>
      have hnot : ¬ (mark.isEmpty = false ∧ mark.isPrefixOf (c :: back) = true) := by
        rintro ⟨hne, hstarts⟩
        have hback : mark <+: [] ++ c :: back := List.isPrefixOf_iff_prefix.mp hstarts
        rw [List.prefix_nil.mp (isPrefix_of_append_cons hc hback)] at hne
        cases hne
      rw [List.nil_append, replace, if_neg hnot, List.nil_append]
  | case2 d rest hmark ih =>
      have hstarts := List.isPrefixOf_iff_prefix.mp hmark.2
      have hlength : mark.length - 1 ≤ rest.length := by
        have := hstarts.length_le
        rw [List.length_cons] at this
        omega
      have hmark' : mark.isEmpty = false ∧ mark.isPrefixOf (d :: (rest ++ c :: back)) = true :=
        ⟨hmark.1, List.isPrefixOf_iff_prefix.mpr
          (hstarts.trans (List.prefix_append (d :: rest) (c :: back)))⟩
      rw [List.cons_append, replace, if_pos hmark', List.drop_append_of_le_length hlength, ih,
        List.append_assoc]
  | case3 d rest hmark ih =>
      have hmark' :
          ¬ (mark.isEmpty = false ∧ mark.isPrefixOf (d :: (rest ++ c :: back)) = true) := by
        rintro ⟨hne, hstarts⟩
        have hfront : mark <+: d :: rest ++ c :: back := List.isPrefixOf_iff_prefix.mp hstarts
        exact hmark ⟨hne, List.isPrefixOf_iff_prefix.mpr (isPrefix_of_append_cons hc hfront)⟩
      rw [List.cons_append, replace, if_neg hmark', ih, List.cons_append]

theorem replace_eq_self (h : ¬ mark <:+: text) : replace mark new text = text := by
  fun_induction replace mark new text with
  | case1 => rfl
  | case2 d rest hmark _ => exact absurd (List.isPrefixOf_iff_prefix.mp hmark.2).isInfix h
  | case3 d rest _ ih => rw [ih fun hrest => h (hrest.trans (List.suffix_cons d rest).isInfix)]

/-- A mark alone is replaced. -/
theorem replace_self (h : mark ≠ []) (new : Text) : replace mark new mark = new := by
  cases mark with
  | nil => exact absurd rfl h
  | cons c rest =>
      have hstarts : (c :: rest).isEmpty = false ∧
          (c :: rest).isPrefixOf (c :: rest) = true :=
        ⟨rfl, List.isPrefixOf_iff_prefix.mpr (List.prefix_refl _)⟩
      rw [replace, if_pos hstarts, List.length_cons, Nat.add_sub_cancel, List.drop_length, replace,
        List.append_nil]

/-- What begins with a character that is only at the beginning of a text occurs there, if at all. -/
theorem isPrefix_of_isInfix_cons (hc : c ∉ back) (h : c :: mark <:+: c :: back) :
    c :: mark <+: c :: back := by
  obtain ⟨front, rest, heq⟩ := h
  cases front with
  | nil => exact ⟨rest, heq⟩
  | cons d front =>
      obtain ⟨-, hback⟩ := List.cons.inj heq
      refine absurd ?_ hc
      rw [← hback]
      exact List.mem_append_left rest (List.mem_append_right front List.mem_cons_self)

theorem trimEnd_append_cons (hc : isBlank c = false) (front back : Text) :
    trimEnd (front ++ c :: back) = front ++ c :: trimEnd back := by
  have hblank : ¬ isBlank c = true := Bool.eq_false_iff.mp hc
  rw [trimEnd, trimEnd, List.reverse_append, List.reverse_cons, List.append_assoc,
    List.dropWhile_append]
  split
  · rename_i hback
    rw [List.isEmpty_iff.mp hback, List.singleton_append, List.dropWhile_cons_of_neg hblank]
    simp
  · simp

end CounterFormula.Text
