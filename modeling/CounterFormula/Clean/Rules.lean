import CounterFormula.Clean.Erasure
import CounterFormula.Reference

/-!
# Clean — Rules

The traces that a document leaves in its formula, one rule each: numeric footnotes in
parentheses, stray spaces after a sigil, inside a reference and after a dot, and double hash
marks.  `strip` applies all rules once, in order.

* `strip_sublist`: stripping only removes characters.
-/

namespace CounterFormula.Clean

open Lexer (startsSymbol continuesSymbol)

/-! ### Footnotes -/

/-- A text in two parts. -/
abbrev Split (text : Text) := { parts : Text × Text // parts.1 ++ parts.2 = text }

/-- The characters of a footnote's list. -/
def inNumberList (c : Char) : Bool :=
  c.isDigit || c == ' ' || c == '-'

/-- A list of digits, spaces and hyphens with its closing parenthesis, and what follows. -/
def takeNumberList? (text : Text) : Option (Split text) :=
  match h : text.dropWhile inNumberList with
  | ')' :: rest =>
    some ⟨(text.takeWhile inNumberList ++ [')'], rest), by
      simpa [h] using List.takeWhile_append_dropWhile (p := inNumberList) (l := text)⟩
  | _ => none

/-- The name of a counter, blanks and an opening parenthesis, and what follows. -/
def takeCounterCall? (text : Text) : Option (Split text) :=
  match text with
  | c :: more =>
    if startsSymbol c then
      match h : (more.dropWhile continuesSymbol).dropWhile Text.isBlank with
      | '(' :: rest =>
        some ⟨(c :: more.takeWhile continuesSymbol ++
            (more.dropWhile continuesSymbol).takeWhile Text.isBlank ++ ['('], rest), by
          have hblank := List.takeWhile_append_dropWhile (p := Text.isBlank)
            (l := more.dropWhile continuesSymbol)
          have hname := List.takeWhile_append_dropWhile (p := continuesSymbol) (l := more)
          simp only [h] at hblank
          simp [hblank, hname]⟩
      | _ => none
    else none
  | [] => none

theorem sublist_of_split {text : Text} (split : Split text) {c : Char} :
    split.val.2.Sublist (c :: text) := by
  obtain ⟨parts, h⟩ := split
  exact ((List.sublist_append_right parts.1 parts.2).trans (h ▸ List.Sublist.refl _)).cons _

theorem length_rest_le {text : Text} (split : Split text) : split.val.2.length ≤ text.length := by
  obtain ⟨parts, h⟩ := split
  simp [← h]

/-- A parenthesized list of numbers is erased, unless a summed counter is before it: then it
says what to sum, and is kept. -/
def footnote : Rule
  | '(' :: more =>
    (takeNumberList? more).map fun split =>
      ⟨[], split.val.2, by exact sublist_of_split split,
        Nat.lt_succ_of_le (length_rest_le split)⟩
  | '~' :: more =>
    (takeCounterCall? more).bind fun call =>
      (takeNumberList? call.val.2).map fun list =>
        ⟨'~' :: call.val.1 ++ list.val.1, list.val.2, by
            have hcall := call.property
            rw [← list.property] at hcall
            simp [hcall],
          Nat.lt_succ_of_le (Nat.le_trans (length_rest_le list) (length_rest_le call))⟩
  | _ => none

/-! ### Spaces -/

def isSpace (c : Char) : Bool :=
  c == ' '

theorem sublist_of_dropWhile {p : Char → Bool} {c : Char} {text : Text} :
    (text.dropWhile p).Sublist (c :: text) :=
  (List.dropWhile_sublist p).cons _

/-- Spaces between a sigil and a letter or digit are erased. -/
def sigilSpace : Rule
  | '$' :: ' ' :: more =>
    if ((more.dropWhile isSpace).head?.any Char.isAlphanum) = true then
      some ⟨['$'], more.dropWhile isSpace, sublist_of_dropWhile.cons_cons _,
        Nat.lt_succ_of_le sublist_of_dropWhile.length_le⟩
    else none
  | _ => none

/-- The characters of a reference's path. -/
def inPath (c : Char) : Bool :=
  c.isAlphanum || c == '/' || c == '_'

/-- Spaces after a reference's path are erased, and what follows is joined to the path. -/
def referenceSpace : Rule := fun text =>
  if hscheme : Reference.scheme.isPrefixOf text = true then
    let body := text.drop Reference.scheme.length
    match hgap : body.dropWhile inPath with
    | ' ' :: more =>
      let joined := more.dropWhile isSpace
      have hbody : Reference.scheme ++ body = text := by
        obtain ⟨tail, htail⟩ := List.isPrefixOf_iff_prefix.mp hscheme
        simp [body, ← htail]
      have hpath : body.takeWhile inPath ++ ' ' :: more = body := by
        rw [← hgap, List.takeWhile_append_dropWhile]
      some ⟨Reference.scheme ++ body.takeWhile inPath ++ joined.takeWhile inPath,
        joined.dropWhile inPath, by
          rw [List.append_assoc, List.takeWhile_append_dropWhile, List.append_assoc, ← hbody]
          conv => rhs; rw [← hpath]
          exact ((List.Sublist.refl _).append sublist_of_dropWhile).append_left _,
        by
          have h₁ : (joined.dropWhile inPath).length ≤ joined.length :=
            (List.dropWhile_sublist _).length_le
          have h₂ : joined.length ≤ more.length := (List.dropWhile_sublist _).length_le
          have h₃ := congrArg List.length hpath
          have h₄ := congrArg List.length hbody
          simp only [List.length_append, List.length_cons] at h₃ h₄
          omega⟩
    | _ => none
  else none

/-- Spaces after a dot are erased. -/
def dotSpace : Rule
  | '.' :: ' ' :: more =>
    some ⟨['.'], more.dropWhile isSpace, sublist_of_dropWhile.cons_cons _,
      Nat.lt_succ_of_le sublist_of_dropWhile.length_le⟩
  | _ => none

/-! ### Hash marks -/

/-- What follows a hash mark and any blanks before it. -/
def afterHash? (text : Text) : Option { rest : Text // rest <:+ text } :=
  match h : text.dropWhile Text.isBlank with
  | '#' :: rest =>
    some ⟨rest, (List.suffix_cons '#' rest).trans (h ▸ List.dropWhile_suffix _)⟩
  | _ => none

/-- Two hash marks after an opening operator are erased with the operator and with the name
that trails them. -/
def hashMarks : Rule
  | c :: more =>
    if c ∈ ['+', '-', '*', '('] then
      (afterHash? more).bind fun ⟨once, honce⟩ =>
        (afterHash? once).map fun ⟨twice, htwice⟩ =>
          have hrest : (twice.dropWhile Text.isBlank).dropWhile continuesSymbol <:+ more :=
            (((List.dropWhile_suffix _).trans (List.dropWhile_suffix _)).trans htwice).trans honce
          ⟨[], (twice.dropWhile Text.isBlank).dropWhile continuesSymbol, hrest.sublist.cons _,
            Nat.lt_succ_of_le hrest.length_le⟩
    else none
  | [] => none

/-! ### All rules -/

/-- Words that a formula never means. -/
def noiseWords : List Text := ["SumOverCellPLMN".toList, "TIME_SHIFT".toList]

def eraseNoise (text : Text) : Text :=
  noiseWords.foldl (fun text word => Text.replace word [] text) text

theorem eraseNoise_sublist (text : Text) : (eraseNoise text).Sublist text :=
  (Text.replace_nil_sublist _ _).trans (Text.replace_nil_sublist _ _)

/-- `text` with every rule applied once, in order. -/
def strip (text : Text) : Text :=
  dotSpace.apply <| hashMarks.apply <| referenceSpace.apply <| sigilSpace.apply <|
    eraseNoise <| footnote.apply text

theorem strip_sublist (text : Text) : (strip text).Sublist text :=
  (dotSpace.apply_sublist _).trans <| (hashMarks.apply_sublist _).trans <|
    (referenceSpace.apply_sublist _).trans <| (sigilSpace.apply_sublist _).trans <|
      (eraseNoise_sublist _).trans (footnote.apply_sublist text)

end CounterFormula.Clean
