/-!
# Ascending lists

Finite sets of ordered values, kept as strictly ascending lists.

* `mem_insert`: insertion adds the one element.
* `pairwise_insert`: what is ascending stays so.
* `mem_ofList`, `pairwise_ofList`: so a list is put in order, and loses and gains nothing.
-/

namespace CounterFormula.Ascending

variable {α : Type} [LT α] [DecidableLT α] [DecidableEq α]

/-- `a` added to the ascending list, unless it is there already. -/
def insert (a : α) : List α → List α
  | [] => [a]
  | b :: rest =>
    if a < b then a :: b :: rest
    else if a = b then b :: rest
    else b :: insert a rest

/-- The elements of `xs` in ascending order, each once. -/
def ofList (xs : List α) : List α :=
  xs.foldl (fun set x => insert x set) []

theorem mem_insert {a b : α} {set : List α} : b ∈ insert a set ↔ b = a ∨ b ∈ set := by
  induction set with
  | nil => simp [insert]
  | cons c rest ih =>
    simp only [insert]
    split
    next => simp
    next =>
      split
      next h => simp [h]
      next => simp only [List.mem_cons, ih]; exact or_left_comm

theorem pairwise_insert [Std.Trichotomous fun a b : α => a < b]
    [Trans (fun a b : α => a < b) (fun a b : α => a < b) (fun a b : α => a < b)] {a : α}
    {set : List α} (h : set.Pairwise (· < ·)) : (insert a set).Pairwise (· < ·) := by
  induction set with
  | nil => exact List.pairwise_singleton _ a
  | cons c rest ih =>
    obtain ⟨hc, hrest⟩ := List.pairwise_cons.mp h
    simp only [insert]
    split
    next hless =>
      refine List.pairwise_cons.mpr ⟨fun b hb => ?_, h⟩
      rcases List.mem_cons.mp hb with rfl | hb
      · exact hless
      · exact Trans.trans hless (hc b hb)
    next hless =>
      split
      next => exact h
      next hne =>
        refine List.pairwise_cons.mpr ⟨fun b hb => ?_, ih hrest⟩
        rcases mem_insert.mp hb with rfl | hb
        · exact Classical.byContradiction fun hgreater =>
            hne (Std.Trichotomous.trichotomous b c hless hgreater)
        · exact hc b hb

theorem mem_ofList {a : α} {xs : List α} : a ∈ ofList xs ↔ a ∈ xs := by
  have hall (set : List α) :
      a ∈ xs.foldl (fun set x => insert x set) set ↔ a ∈ set ∨ a ∈ xs := by
    induction xs generalizing set with
    | nil => simp
    | cons x xs ih =>
        rw [List.foldl_cons, ih, mem_insert, List.mem_cons, or_comm (a := a = x), or_assoc]
  rw [ofList, hall, or_iff_right List.not_mem_nil]

theorem pairwise_ofList [Std.Trichotomous fun a b : α => a < b]
    [Trans (fun a b : α => a < b) (fun a b : α => a < b) (fun a b : α => a < b)] (xs : List α) :
    (ofList xs).Pairwise (· < ·) := by
  have hall (set : List α) (h : set.Pairwise (· < ·)) :
      (xs.foldl (fun set x => insert x set) set).Pairwise (· < ·) := by
    induction xs generalizing set with
    | nil => exact h
    | cons x xs ih => exact ih _ (pairwise_insert h)
  exact hall [] .nil

end CounterFormula.Ascending
