import CounterFormula.Proofs.Clean.Passing
import CounterFormula.Proofs.Token.Written

/-!
# Clean — Folding

A summation folded.  Its name and its parentheses are plain characters, and so are the digits and
hyphens of its list.  Its sign becomes plain, and its blanks become other blanks, where the encoding
has any for them (`KeepsBlanks`).

* `fold_rangeList`: digits and hyphens stay, and blanks become other blanks.
* `exists_clean_call`: cleaning passes over a summation, and cleans what stands before it and behind
  it each on its own.
-/

namespace CounterFormula.Clean

open Lexer (summationGlyph summationSign Reblanks)

variable {encoding : Encoding} {raw text front back name blanks list : Text} {c : Char}

/-! ### Folding -/

/-- `text` with plain signs, folded into the encoding. -/
def fold (encoding : Encoding) (text : Text) : Text :=
  transliterate encoding (plainSigns text)

theorem clean_eq_settle_fold (encoding : Encoding) (raw : Text) :
    clean encoding raw = settle (fold encoding raw) := rfl

theorem fold_append (encoding : Encoding) (front back : Text) :
    fold encoding (front ++ back) = fold encoding front ++ fold encoding back := by
  rw [fold, fold, fold, plainSigns, plainSigns, plainSigns, replace_singleton, replace_singleton,
    replace_singleton, List.map_append, transliterate, List.flatMap_append]
  rfl

theorem fold_of_ascii (encoding : Encoding) (h : ∀ c ∈ text, c.toNat < 0x80) :
    fold encoding text = text := by
  have hglyph : summationGlyph ∉ text := fun hmem => absurd (h _ hmem) (by decide)
  rw [fold, plainSigns_eq_self hglyph, transliterate_eq_self fun c hc => holds_of_lt (h c hc)]

/-- What stands for a blank in the encoding. -/
def blankOf (encoding : Encoding) (c : Char) : Char :=
  (foldChar encoding c).headD c

theorem length_foldHigh (hellipsis : c.toNat ≠ 0x2026) (hjoiner : c.toNat ≠ 0x200B)
    (hmark : c.toNat ≠ 0xFEFF) : (foldHigh c).length = 1 := by
  unfold foldHigh
  dsimp only
  rw [if_neg hellipsis, if_neg (not_or_intro hjoiner hmark)]
  repeat' split
  all_goals rfl

theorem length_foldUpper (encoding : Encoding) (c : Char) : (foldUpper encoding c).length = 1 := by
  unfold foldUpper
  repeat' split
  all_goals rfl

theorem length_foldChar_of_isBlank (encoding : Encoding) (hc : Text.isBlank c = true) :
    (foldChar encoding c).length = 1 := by
  have hne {n : Nat} (hn : Text.isBlank (Char.ofNat n) = false) : c.toNat ≠ n := by
    rintro rfl
    rw [Char.ofNat_toNat, hc] at hn
    cases hn
  unfold foldChar
  split
  · rfl
  · split
    · exact length_foldUpper encoding c
    · exact length_foldHigh (hne (by decide)) (hne (by decide)) (hne (by decide))

theorem foldChar_of_isBlank (encoding : Encoding) (hc : Text.isBlank c = true) :
    foldChar encoding c = [blankOf encoding c] := by
  obtain ⟨d, hd⟩ := List.length_eq_one_iff.mp (length_foldChar_of_isBlank encoding hc)
  rw [blankOf, hd]
  rfl

/-- The encoding has a blank for every blank of `text`. -/
def KeepsBlanks (encoding : Encoding) (text : Text) : Prop :=
  ∀ c ∈ text, Text.isBlank c = true → IsBlanks (foldChar encoding c)

theorem KeepsBlanks.isBlank (h : KeepsBlanks encoding text) (hc : c ∈ text)
    (hblank : Text.isBlank c = true) : Text.isBlank (blankOf encoding c) = true := by
  have hfold := h c hc hblank
  rw [foldChar_of_isBlank encoding hblank] at hfold
  exact hfold _ List.mem_cons_self

theorem toNat_lt_of_isDigit (h : c.isDigit = true) : c.toNat < 0x80 := by
  have hcarries : Lexer.carriesOn .number c = true := by
    simp [Lexer.carriesOn, Lexer.continuesNumber, h]
  exact Lexer.toNat_lt_of_inRun (Lexer.inRun_of_carriesOn hcarries)

/-- Digits and hyphens stay, and blanks become other blanks. -/
theorem foldChar_of_mem (hlist : IsRangeList list) (hc : c ∈ list)
    (hblank : Text.isBlank c = false) : foldChar encoding c = [c] := by
  refine foldChar_eq_of_holds (holds_of_lt ?_)
  rcases hlist c hc with hdigit | rfl | hblank'
  · exact toNat_lt_of_isDigit hdigit
  · decide
  · rw [hblank'] at hblank
    cases hblank

theorem reblanks_of_keepsBlanks (hlist : IsRangeList list) (hkeeps : KeepsBlanks encoding list) :
    Reblanks (blankOf encoding) list where
  blank c hc hblank := hkeeps.isBlank hc hblank
  other c hc hblank := by
    rw [blankOf, foldChar_of_mem hlist hc hblank]
    rfl

theorem fold_rangeList (encoding : Encoding) (hlist : IsRangeList list) :
    fold encoding list = list.map (blankOf encoding) := by
  have hglyph : summationGlyph ∉ list := hlist.not_mem (by decide) (by decide) (by decide)
  rw [fold, plainSigns_eq_self hglyph, transliterate, List.map_eq_flatMap]
  refine List.flatMap_congr fun c hc => ?_
  cases hblank : Text.isBlank c with
  | true => exact foldChar_of_isBlank encoding hblank
  | false =>
      rw [blankOf, foldChar_of_mem hlist hc hblank]
      rfl

theorem IsRangeList.map (h : IsRangeList list) (hkeeps : KeepsBlanks encoding list) :
    IsRangeList (list.map (blankOf encoding)) := by
  intro d hd
  obtain ⟨c, hc, rfl⟩ := List.mem_map.mp hd
  have hblanks := reblanks_of_keepsBlanks h hkeeps
  cases hblank : Text.isBlank c with
  | true => exact .inr (.inr (hblanks.blank c hc hblank))
  | false =>
      rw [hblanks.other c hc hblank]
      exact h c hc

theorem IsBlanks.isRangeList (h : IsBlanks blanks) : IsRangeList blanks :=
  fun c hc => .inr (.inr (h c hc))

theorem IsBlanks.map (h : IsBlanks blanks) (hkeeps : KeepsBlanks encoding blanks) :
    IsBlanks (blanks.map (blankOf encoding)) := by
  intro d hd
  obtain ⟨c, hc, rfl⟩ := List.mem_map.mp hd
  exact hkeeps.isBlank hc (h c hc)

theorem KeepsBlanks.sublist {less : Text} (h : KeepsBlanks encoding text)
    (hsub : less.Sublist text) : KeepsBlanks encoding less :=
  fun c hc => h c (hsub.subset hc)

theorem IsIdentifier.fold_eq (h : IsIdentifier name) (encoding : Encoding) :
    fold encoding name = name :=
  fold_of_ascii encoding fun c hc => Lexer.toNat_lt_of_inRun (h.inRun c hc)

theorem fold_sign (encoding : Encoding) {sign : Char}
    (h : sign = summationSign ∨ sign = summationGlyph) : fold encoding [sign] = ['~'] := by
  rw [fold, plainSigns, replace_singleton]
  rcases h with rfl | rfl <;> cases encoding <;> rfl

theorem fold_parenthesized (encoding : Encoding) (hlist : IsRangeList list) :
    fold encoding (parenthesized list) = parenthesized (list.map (blankOf encoding)) := by
  have hsplit : parenthesized list = ['('] ++ list ++ [')'] := rfl
  rw [hsplit, fold_append, fold_append, fold_rangeList encoding hlist,
    fold_of_ascii encoding (by decide), fold_of_ascii encoding (by decide)]
  rfl

theorem IsNumberList.toNat_lt (h : IsNumberList list) : ∀ c ∈ list, c.toNat < 0x80 := by
  intro c hc
  have hnumber := h c hc
  simp only [inNumberList, Bool.or_eq_true, beq_iff_eq] at hnumber
  rcases hnumber with (hdigit | rfl) | rfl
  · exact toNat_lt_of_isDigit hdigit
  · decide
  · decide

theorem IsNumberList.fold_parenthesized (h : IsNumberList list) (encoding : Encoding) :
    fold encoding (parenthesized list) = parenthesized list :=
  fold_of_ascii encoding (List.forall_mem_append.mpr
    ⟨List.forall_mem_cons.mpr ⟨by decide, h.toNat_lt⟩, by decide⟩)

/-- A summation as a raw text has it: the sign may be the glyph. -/
def rawCall (sign : Char) (name blanks list : Text) : Text :=
  sign :: name ++ blanks ++ parenthesized list

/-- **Cleaning passes over a summation.** -/
theorem exists_clean_call {sign : Char} (hsign : sign = summationSign ∨ sign = summationGlyph)
    (hname : IsIdentifier name) (hblanks : IsBlanks blanks) (hlist : IsRangeList list)
    (hclean : ∀ word ∈ noiseWords, ¬ word <:+: name)
    (hkeeps : KeepsBlanks encoding (blanks ++ list)) (front back : Text) :
    ∃ blanks', IsBlanks blanks' ∧
      clean encoding (front ++ rawCall sign name blanks list ++ back) =
        clean encoding front ++ call name blanks' (list.map (blankOf encoding)) ++
          clean encoding back := by
  have hblanks' := hblanks.map (hkeeps.sublist (List.sublist_append_left blanks list))
  have hfold : fold encoding (rawCall sign name blanks list) =
      call name (blanks.map (blankOf encoding)) (list.map (blankOf encoding)) := by
    have hsplit : rawCall sign name blanks list = [sign] ++ name ++ blanks ++ parenthesized list :=
      rfl
    rw [hsplit, fold_append, fold_append, fold_append, fold_sign encoding hsign, hname.fold_eq,
      fold_rangeList encoding hblanks.isRangeList, fold_parenthesized encoding hlist]
    rfl
  obtain ⟨blanks', hsub, hsettle⟩ := exists_settle_call hname hblanks'
    (hlist.map (hkeeps.sublist (List.sublist_append_right blanks list))) hclean
    (fold encoding front) (fold encoding back)
  refine ⟨blanks', fun c hc => hblanks' c (hsub.subset hc), ?_⟩
  rw [clean_eq_settle_fold, fold_append, fold_append, hfold, hsettle]
  rfl

end CounterFormula.Clean
