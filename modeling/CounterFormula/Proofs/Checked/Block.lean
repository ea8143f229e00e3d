import CounterFormula.Block
import CounterFormula.Proofs.Checked.Lexer
import Mathlib.Algebra.GroupWithZero.Nat

/-!
# Checked — Block

The search for a formula block, with byte indexes into the document.  A character takes one to four
bytes, and a text can only be cut between two characters.  Every index that the search comes to is
the number of bytes of what stands before it, so that the document can be cut there.

* `from?_append`, `upTo?_append`: a text can be cut behind each of its beginnings.
* `indexOf?_eq`, `phraseAt?_eq`: a mark or a phrase is found behind a beginning.
* `locate?_eq`: the search never fails, and finds the block that `locate` finds.
-/

namespace CounterFormula.Checked

/-! ### Cuts -/

/-- The number of bytes of `text`. -/
def bytes (text : Text) : Nat :=
  (text.map Char.utf8Size).sum

/-- What follows in `text` from a byte index on; it fails within a character and outside of the
text. -/
def from? : Text → Nat → Option Text
  | text, 0 => some text
  | [], _ + 1 => none
  | c :: rest, index + 1 => do
    let index ← sub? (index + 1) c.utf8Size
    from? rest index

/-- What stands in `text` before a byte index; it fails within a character and outside of the
text. -/
def upTo? : Text → Nat → Option Text
  | _, 0 => some []
  | [], _ + 1 => none
  | c :: rest, index + 1 => do
    let index ← sub? (index + 1) c.utf8Size
    let front ← upTo? rest index
    some (c :: front)

/-- What stands in `text` between two byte indexes. -/
def between? (text : Text) (first last : Nat) : Option Text := do
  let rest ← from? text first
  let count ← sub? last first
  upTo? rest count

theorem bytes_append (text more : Text) : bytes (text ++ more) = bytes text + bytes more := by
  rw [bytes, List.map_append, List.sum_append, bytes, bytes]

theorem bytes_cons (c : Char) (text : Text) : bytes (c :: text) = c.utf8Size + bytes text := by
  rw [bytes, List.map_cons, List.sum_cons, bytes]

/-- A character is not empty, and may be passed. -/
theorem exists_bytes_cons (c : Char) (text : Text) :
    ∃ index, bytes (c :: text) = index + 1 ∧ sub? (index + 1) c.utf8Size = some (bytes text) := by
  have hpos := c.utf8Size_pos
  rw [bytes_cons]
  refine ⟨c.utf8Size + bytes text - 1, by omega, ?_⟩
  rw [sub?_of_le (by omega)]
  exact congrArg some (by omega)

/-- **A text can be cut** behind each of its beginnings. -/
theorem from?_append (before after : Text) : from? (before ++ after) (bytes before) = some after := by
  induction before with
  | nil => cases after <;> rfl
  | cons c before ih =>
      obtain ⟨index, hindex, hsub⟩ := exists_bytes_cons c before
      rw [List.cons_append, hindex, from?, hsub]
      exact ih

theorem upTo?_append (before after : Text) :
    upTo? (before ++ after) (bytes before) = some before := by
  induction before with
  | nil => cases after <;> rfl
  | cons c before ih =>
      obtain ⟨index, hindex, hsub⟩ := exists_bytes_cons c before
      rw [List.cons_append, hindex, upTo?, hsub]
      simp only [Option.bind_eq_bind, Option.bind_some, ih]

theorem between?_append (before text after : Text) :
    between? (before ++ text ++ after) (bytes before) (bytes before + bytes text) = some text := by
  rw [between?, List.append_assoc, from?_append, sub?_of_le (Nat.le_add_right _ _),
    Nat.add_sub_cancel_left]
  exact upTo?_append text after

/-! ### Searches -/

/-- The byte index of the first occurrence of `mark`, counted from `index` on. -/
def indexFrom? (mark : Text) (index : Nat) : Text → Option Nat
  | [] => if mark.isEmpty then some index else none
  | c :: rest =>
    if mark.isPrefixOf (c :: rest) then some index
    else indexFrom? mark (index + c.utf8Size) rest

/-- The byte index of the first occurrence of `mark` in `text`. -/
def indexOf? (mark text : Text) : Option Nat :=
  indexFrom? mark 0 text

theorem indexFrom?_eq (mark : Text) (index : Nat) (text : Text) :
    indexFrom? mark index text =
      (Text.cut? mark text).map fun cut => index + bytes cut.1 := by
  induction text generalizing index with
  | nil =>
      rw [indexFrom?, Text.cut?]
      split <;> rfl
  | cons c rest ih =>
      rw [indexFrom?, Text.cut?, ih]
      split
      · rfl
      · rw [Option.map_map]
        refine congrArg (Option.map · _) (funext fun cut => ?_)
        rw [Function.comp_apply, bytes_cons, Nat.add_assoc]

/-- A mark is found behind what stands before it. -/
theorem indexOf?_eq (mark text : Text) :
    indexOf? mark text = (Text.cut? mark text).map fun cut => bytes cut.1 := by
  rw [indexOf?, indexFrom?_eq]
  simp only [Nat.zero_add]

/-- The byte index of each character of `text` and of its end, counted from `index` on. -/
def indexesFrom (index : Nat) : Text → List Nat
  | [] => [index]
  | c :: rest => index :: indexesFrom (index + c.utf8Size) rest

/-- The first of `indexes` at which `phrase` occurs in `document`, case aside. -/
def phraseAt? (phrase document : Text) : List Nat → Option (Option Nat)
  | [] => some none
  | index :: more => do
    let rest ← from? document index
    if Block.beginsWithPhrase phrase rest then some (some index)
    else phraseAt? phrase document more

/-- A phrase is found behind a beginning of the document. -/
theorem phraseAt?_eq (phrase before text : Text) :
    (Block.fromPhrase? phrase text = none ∧
      phraseAt? phrase (before ++ text) (indexesFrom (bytes before) text) = some none) ∨
    ∃ skipped found, text = skipped ++ found ∧ Block.fromPhrase? phrase text = some found ∧
      phraseAt? phrase (before ++ text) (indexesFrom (bytes before) text) =
        some (some (bytes (before ++ skipped))) := by
  induction text generalizing before with
  | nil =>
      rw [indexesFrom, phraseAt?, from?_append, Block.fromPhrase?]
      by_cases hhere : Block.beginsWithPhrase phrase [] = true
      · exact .inr ⟨[], [], rfl, if_pos hhere, by simp [hhere]⟩
      · exact .inl ⟨if_neg hhere, by simp [hhere, phraseAt?]⟩
  | cons c rest ih =>
      rw [indexesFrom, phraseAt?, from?_append, Block.fromPhrase?]
      by_cases hhere : Block.beginsWithPhrase phrase (c :: rest) = true
      · exact .inr ⟨[], c :: rest, rfl, if_pos hhere, by simp [hhere]⟩
      · have hbytes : bytes before + c.utf8Size = bytes (before ++ [c]) := by
          rw [bytes_append, bytes_cons]
          rfl
        have hsplit : before ++ c :: rest = (before ++ [c]) ++ rest := by simp
        rw [if_neg hhere, Option.bind_eq_bind, Option.bind_some, if_neg hhere, hbytes, hsplit]
        refine (ih (before ++ [c])).imp_right fun ⟨skipped, found, htext, hfound, hat⟩ => ?_
        exact ⟨c :: skipped, found, by rw [htext, List.cons_append], hfound, by simpa using hat⟩

/-! ### The search for a block -/

/-- The block of `document` that follows `phrase`. -/
def locate? (phrase document : Text) : Option Block := do
  match ← phraseAt? phrase document (indexesFrom 0 document) with
  | none => some .noPhrase
  | some phraseIndex =>
    let fromPhrase ← from? document phraseIndex
    match indexOf? Block.beginMark fromPhrase with
    | none => some (.flawed .noBegin)
    | some beginIndex =>
      let bodyIndex := beginIndex + phraseIndex + bytes Block.beginMark
      let fromBody ← from? document bodyIndex
      match indexOf? Block.endMark fromBody with
      | none => some (.flawed .noEnd)
      | some endIndex =>
        let body ← between? document bodyIndex (endIndex + bodyIndex)
        let text := Text.trim body
        some (if text.isEmpty then .flawed .blank else .formula text)

/-- **The search for a block** cuts the document between its characters only. -/
theorem locate?_eq (phrase document : Text) :
    locate? phrase document = some (Block.locate phrase document) := by
  have hphrase := phraseAt?_eq phrase [] document
  simp only [List.nil_append, bytes, List.map_nil, List.sum_nil] at hphrase
  rcases hphrase with ⟨hnone, hat⟩ | ⟨skipped, found, rfl, hfound, hat⟩
  · rw [locate?, hat, Block.locate, hnone]
    rfl
  rw [locate?, hat, Block.locate, hfound]
  simp only [Option.bind_eq_bind, Option.bind_some]
  rw [← bytes, from?_append]
  simp only [Option.bind_some]
  rw [indexOf?_eq]
  cases hbegin : Text.cut? Block.beginMark found with
  | none => rfl
  | some cut =>
      obtain ⟨before, afterBegin⟩ := cut
      obtain rfl := Text.cut_eq_append hbegin
      -- the index behind the mark counts the bytes before it
      have hindex : bytes before + bytes skipped + bytes Block.beginMark =
          bytes (skipped ++ before ++ Block.beginMark) := by
        rw [bytes_append, bytes_append, Nat.add_comm (bytes before)]
      have hsplit : skipped ++ (before ++ Block.beginMark ++ afterBegin) =
          (skipped ++ before ++ Block.beginMark) ++ afterBegin := by
        simp only [List.append_assoc]
      simp only [Option.map_some]
      rw [hindex, hsplit, from?_append]
      simp only [Option.bind_some]
      rw [indexOf?_eq]
      cases hend : Text.cut? Block.endMark afterBegin with
      | none => rfl
      | some cut =>
          obtain ⟨body, afterEnd⟩ := cut
          obtain rfl := Text.cut_eq_append hend
          simp only [Option.map_some]
          rw [List.append_assoc body, ← List.append_assoc _ body, Nat.add_comm (bytes body),
            between?_append]
          rfl

end CounterFormula.Checked
