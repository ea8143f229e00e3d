/-!
# Text

A text is the list of its characters, and every offset counts characters.  Positions are
inclusive at both ends: `slice` takes the characters at offsets `first` to `last`, `splice`
replaces them.

* `cut_eq_append`: cutting at a mark loses nothing.
* `replace_nil_sublist`: deleting a mark only removes characters.
-/

namespace CounterFormula

/-- A text, as the list of its characters. -/
abbrev Text := List Char

namespace Text

instance lawfulBEq : LawfulBEq Text := inferInstance

/-- The characters at offsets `first` to `last`, both included; none when `last < first`. -/
def slice (text : Text) (first last : Nat) : Text :=
  (text.drop first).take (last + 1 - first)

/-- `text` with the characters at offsets `first` to `last` replaced by `new`. -/
def splice (text : Text) (first last : Nat) (new : Text) : Text :=
  text.take first ++ new ++ text.drop (last + 1)

/-- What stands before and after the first occurrence of `mark`. -/
def cut? (mark : Text) : Text → Option (Text × Text)
  | [] => if mark.isEmpty then some ([], []) else none
  | c :: rest =>
    if mark.isPrefixOf (c :: rest) then
      some ([], (c :: rest).drop mark.length)
    else
      (cut? mark rest).map fun (before, after) => (c :: before, after)

/-- Whether `mark` occurs in `text`. -/
def mentions (text mark : Text) : Bool :=
  (cut? mark text).isSome

/-- `text` with every occurrence of `mark`, from the left and without overlap, replaced by
`new`.  An empty mark occurs nowhere. -/
def replace (mark new : Text) : Text → Text
  | [] => []
  | c :: rest =>
    if mark.isEmpty = false ∧ mark.isPrefixOf (c :: rest) = true then
      new ++ replace mark new (rest.drop (mark.length - 1))
    else
      c :: replace mark new rest
termination_by text => text.length
decreasing_by
  all_goals simp only [List.length_cons, List.length_drop]; omega

/-- `text` in lower case, letters outside ASCII untouched. -/
def lowerAscii (text : Text) : Text :=
  text.map Char.toLower

/-- The texts in order with `separator` between neighbours. -/
def join (separator : Text) (texts : List Text) : Text :=
  List.intercalate separator texts

/-! ### Laws -/

theorem cut_eq_append {mark text before after : Text} (h : cut? mark text = some (before, after)) :
    text = before ++ mark ++ after := by
  induction text generalizing before with
  | nil =>
    simp only [cut?] at h
    split at h
    next hm => obtain ⟨rfl, rfl⟩ := Prod.mk.inj (Option.some.inj h); simp_all
    next => cases h
  | cons c rest ih =>
    simp only [cut?] at h
    split at h
    next hm =>
      obtain ⟨rfl, rfl⟩ := Prod.mk.inj (Option.some.inj h)
      obtain ⟨tail, htail⟩ := List.isPrefixOf_iff_prefix.mp hm
      rw [← htail]; simp
    next =>
      obtain ⟨⟨b, a⟩, hb, hab⟩ := Option.map_eq_some_iff.mp h
      obtain ⟨rfl, rfl⟩ := Prod.mk.inj hab
      simp [ih hb]

/-- Deleting a mark leaves a sublist of the text. -/
theorem replace_nil_sublist (mark text : Text) : (replace mark [] text).Sublist text := by
  fun_induction replace mark [] text with
  | case1 => exact .slnil
  | case2 c rest _ ih => exact (ih.trans (List.drop_sublist _ _)).cons _
  | case3 c rest _ ih => exact ih.cons_cons _

end Text

end CounterFormula
