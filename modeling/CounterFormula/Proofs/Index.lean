import Mathlib.Data.List.Basic

/-!
# Index

What is known of a list from an index on, and so of the elements there: a reader that goes by
indexes is at index `i` with the elements that it has not read.  Behind that, what one more element
makes of the distinct elements of a list, in the order in which they first occur, and the stretch of
a list that a filter keeps some elements of.
-/

namespace CounterFormula

variable {α : Type} {list rest : List α} {a b : α} {i : Nat}

/-- The element at an index, where the elements from another one on are known. -/
theorem getElem?_add_of_drop (h : list.drop i = rest) (k : Nat) : list[i + k]? = rest[k]? := by
  rw [← h, List.getElem?_drop]

theorem getElem?_of_drop (h : list.drop i = a :: rest) : list[i]? = some a :=
  getElem?_add_of_drop h 0

theorem drop_add_of_drop (before : List α) (h : list.drop i = before ++ rest) :
    list.drop (i + before.length) = rest := by
  rw [← List.drop_drop, h, List.drop_left]

theorem drop_succ_of_drop (h : list.drop i = a :: rest) : list.drop (i + 1) = rest :=
  drop_add_of_drop [a] h

theorem lt_length_of_drop (h : list.drop i = a :: rest) : i < list.length :=
  Nat.lt_of_not_le fun hle => by
    rw [List.drop_eq_nil_of_le hle] at h
    cases h

theorem drop_concat (h : list.drop i = a :: rest) (mark : α) :
    (list ++ [mark]).drop i = a :: rest ++ [mark] := by
  rw [List.drop_append_of_le_length (Nat.le_of_lt (lt_length_of_drop h)), h]

/-- Two elements stand side by side at some index. -/
theorem exists_suffix_iff :
    (∃ rest, a :: b :: rest <:+ list) ↔ ∃ i, list[i]? = some a ∧ list[i + 1]? = some b := by
  constructor
  · rintro ⟨rest, before, rfl⟩
    have hdrop : (before ++ a :: b :: rest).drop before.length = a :: b :: rest := List.drop_left
    exact ⟨before.length, getElem?_of_drop hdrop, getElem?_of_drop (drop_succ_of_drop hdrop)⟩
  · rintro ⟨i, ha, hb⟩
    refine ⟨list.drop (i + 2), ?_⟩
    have hdrop : list.drop i = a :: b :: list.drop (i + 2) := by
      rw [List.drop_eq_getElem?_toList_append, ha, List.drop_eq_getElem?_toList_append, hb]
      rfl
    rw [← hdrop]
    exact List.drop_suffix i list

/-- An element that occurs again is not listed again. -/
theorem eraseDups_concat [BEq α] [LawfulBEq α] (list : List α) (a : α) :
    (list ++ [a]).eraseDups = if a ∈ list then list.eraseDups else list.eraseDups ++ [a] := by
  rw [List.eraseDups_append]
  by_cases h : a ∈ list
  · simp [List.removeAll, h]
  · simp [List.removeAll, h, List.eraseDups_cons]

/-! ### Filters -/

variable {kept before after : List α} {first last : α} {p : α → Bool}

theorem exists_head_of_filter (h : list.filter p = kept) (hfirst : kept.head? = some first) :
    ∃ skipped rest, list = skipped ++ rest ∧ rest.filter p = kept ∧ rest.head? = some first := by
  obtain ⟨more, rfl⟩ := List.head?_eq_some_iff.mp hfirst
  obtain ⟨skipped, rest, rfl, -, hp, rfl⟩ := List.filter_eq_cons_iff.mp h
  exact ⟨skipped, first :: rest, rfl, List.filter_cons_of_pos hp, rfl⟩

theorem exists_getLast_of_filter (h : list.filter p = kept) (hlast : kept.getLast? = some last) :
    ∃ rest skipped, list = rest ++ skipped ∧ rest.filter p = kept ∧ rest.getLast? = some last := by
  have hback : list.reverse.filter p = kept.reverse := by rw [List.filter_reverse, h]
  rw [← List.head?_reverse] at hlast
  obtain ⟨skipped, rest, hlist, hrest, hhead⟩ := exists_head_of_filter hback hlast
  refine ⟨rest.reverse, skipped.reverse, ?_, ?_, ?_⟩
  · rw [← List.reverse_append, ← hlist, List.reverse_reverse]
  · rw [List.filter_reverse, hrest, List.reverse_reverse]
  · rw [List.getLast?_reverse, hhead]

/-- What a filter keeps side by side, it keeps of a stretch that begins and ends with the same
elements. -/
theorem exists_stretch_of_filter (h : list.filter p = before ++ kept ++ after)
    (hfirst : kept.head? = some first) (hlast : kept.getLast? = some last) :
    ∃ front stretch back, list = front ++ stretch ++ back ∧ stretch.filter p = kept ∧
      stretch.head? = some first ∧ stretch.getLast? = some last := by
  obtain ⟨rest, back, rfl, hrest, -⟩ := List.filter_eq_append_iff.mp h
  obtain ⟨front, middle, rfl, -, hmiddle⟩ := List.filter_eq_append_iff.mp hrest
  obtain ⟨skipped, stretch, rfl, hstretch, hhead⟩ := exists_head_of_filter hmiddle hfirst
  obtain ⟨stretch, passed, rfl, hkept, hend⟩ := exists_getLast_of_filter hstretch hlast
  refine ⟨front ++ skipped, stretch, passed ++ back, by simp, hkept, ?_, hend⟩
  rwa [List.head?_append_of_ne_nil] at hhead
  rintro rfl
  cases hend

end CounterFormula
