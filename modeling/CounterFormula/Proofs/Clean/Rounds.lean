import CounterFormula.Run

/-!
# Clean — Rounds

Cleaning in rounds.  A *round* folds the characters of a text and applies every rule once; rounds
are repeated until one changes nothing.  Folding may lengthen a text (an ellipsis becomes three
dots), so there is no measure that the first round decreases.  It leaves a text that the encoding
holds (`Folded`): a later round has nothing to fold, and only removes characters.

* `length_round_lt`: a round on a folded text that changes it, shortens it.
* `settles_clean`: the rounds end with what `clean` gives, and cleaning that once more, as it is or
  as a reader is shown it, changes neither the text nor its faults.
-/

namespace CounterFormula.Clean

open Lexer (summationGlyph summationSign)

/-- The characters folded, then every rule applied once, in order. -/
def round (encoding : Encoding) (text : Text) : Text :=
  strip (transliterate encoding (plainSigns text))

/-- `Settles encoding text count final`: rounds repeated from `text` on, as long as they change
something, are `count` and end with `final`. -/
inductive Settles (encoding : Encoding) : Text → Nat → Text → Prop where
  | done {text : Text} (h : round encoding text = text) : Settles encoding text 0 text
  | again {text final : Text} {count : Nat} (h : round encoding text ≠ text)
      (hrest : Settles encoding (round encoding text) count final) :
      Settles encoding text (count + 1) final

/-- The encoding holds every character of `text`. -/
def Folded (encoding : Encoding) (text : Text) : Prop :=
  ∀ c ∈ text, Holds encoding c

variable {encoding : Encoding} {text : Text}

/-! ### Signs -/

theorem replace_singleton (mark new : Char) (text : Text) :
    Text.replace [mark] [new] text = text.map fun c => if c = mark then new else c := by
  induction text with
  | nil => rw [Text.replace, List.map_nil]
  | cons c rest ih =>
      rw [Text.replace, List.map_cons]
      by_cases h : c = mark
      · subst h
        rw [if_pos (by simp), if_pos rfl, ← ih]
        rfl
      · have hmark : ([mark].isPrefixOf (c :: rest)) = false := by
          simp [List.isPrefixOf, Ne.symm h]
        rw [if_neg (by simp [hmark]), if_neg h, ih]

theorem not_holds_summationGlyph (encoding : Encoding) : ¬ Holds encoding summationGlyph := by
  cases encoding <;> decide

theorem Folded.glyph_not_mem (h : Folded encoding text) : summationGlyph ∉ text :=
  fun hmem => not_holds_summationGlyph encoding (h _ hmem)

theorem plainSigns_eq_self (h : summationGlyph ∉ text) : plainSigns text = text := by
  have hkeep : ∀ c ∈ text, (if c = summationGlyph then summationSign else c) = c := by
    intro c hc
    exact if_neg (ne_of_mem_of_not_mem hc h)
  rw [plainSigns, replace_singleton, List.map_congr_left hkeep, List.map_id']

/-- What a reader is shown of a text without glyphs is the text, for each of its signs. -/
theorem plainSigns_displayed (h : summationGlyph ∉ text) : plainSigns (displayed text) = text := by
  have hback : ∀ c ∈ text, ((fun c => if c = summationGlyph then summationSign else c) ∘
      fun c => if c = summationSign then summationGlyph else c) c = c := by
    intro c hc
    have hglyph : c ≠ summationGlyph := ne_of_mem_of_not_mem hc h
    by_cases hsign : c = summationSign
    · simp [hsign]
    · simp [hsign, hglyph]
  rw [plainSigns, displayed, replace_singleton, replace_singleton, List.map_map,
    List.map_congr_left hback, List.map_id']

/-! ### One round -/

theorem folded_transliterate (encoding : Encoding) (text : Text) :
    Folded encoding (transliterate encoding text) :=
  fun _ => holds_of_mem_transliterate

theorem Folded.sublist {less : Text} (h : Folded encoding text) (hsub : less.Sublist text) :
    Folded encoding less :=
  fun c hc => h c (hsub.subset hc)

/-- Whatever a round begins with, it leaves a folded text. -/
theorem folded_round (encoding : Encoding) (text : Text) :
    Folded encoding (round encoding text) :=
  (folded_transliterate encoding (plainSigns text)).sublist (strip_sublist _)

/-- On a folded text, a round is the rules alone. -/
theorem round_eq_strip (h : Folded encoding text) : round encoding text = strip text := by
  rw [round, plainSigns_eq_self h.glyph_not_mem, transliterate_eq_self h]

/-- **One round** on a folded text shortens it, unless it changes nothing. -/
theorem length_round_lt (h : Folded encoding text) (hchanges : round encoding text ≠ text) :
    (round encoding text).length < text.length := by
  rw [round_eq_strip h] at hchanges ⊢
  exact Nat.lt_of_not_le fun hle => hchanges ((strip_sublist text).eq_of_length_le hle)

/-! ### All rounds -/

theorem settle_of_strip_eq (h : strip text = text) : settle text = text := by
  rw [settle, if_pos h]

theorem settle_strip (text : Text) : settle (strip text) = settle text := by
  by_cases h : strip text = text
  · rw [h]
  · conv => rhs; rw [settle, if_neg h]

theorem settle_sublist (text : Text) : (settle text).Sublist text := by
  fun_induction settle text with
  | case1 text h => exact .refl text
  | case2 text _ ih => exact ih.trans (strip_sublist text)

/-- **Rounds end**, on a folded text after no more of them than it has characters. -/
theorem exists_settles (h : Folded encoding text) :
    ∃ count ≤ text.length, Settles encoding text count (settle text) := by
  -- on the length of what the rounds have left
  induction hlength : text.length using Nat.strongRecOn generalizing text with
  | ind length ih =>
      subst hlength
      by_cases hdone : round encoding text = text
      · have hstrip : strip text = text := (round_eq_strip h).symm.trans hdone
        refine ⟨0, Nat.zero_le _, ?_⟩
        rw [settle_of_strip_eq hstrip]
        exact .done hdone
      · have hless := length_round_lt h hdone
        obtain ⟨count, hcount, hsettles⟩ := ih _ hless (folded_round encoding text) rfl
        refine ⟨count + 1, Nat.lt_of_le_of_lt hcount hless, ?_⟩
        rw [round_eq_strip h, settle_strip, ← round_eq_strip h] at hsettles
        exact .again hdone hsettles

theorem clean_eq_settle_round (encoding : Encoding) (raw : Text) :
    clean encoding raw = settle (round encoding raw) :=
  (settle_strip _).symm

theorem folded_clean (encoding : Encoding) (raw : Text) : Folded encoding (clean encoding raw) :=
  (folded_transliterate encoding (plainSigns raw)).sublist (settle_sublist _)

/-- A clean text is cleaned to itself, however its summation signs are written. -/
theorem clean_of_plainSigns_eq {raw shown : Text}
    (h : plainSigns shown = clean encoding raw) : clean encoding shown = clean encoding raw := by
  have hstable : strip (clean encoding raw) = clean encoding raw := strip_settle _
  rw [clean, h, transliterate_eq_self (folded_clean encoding raw), settle_of_strip_eq hstable]

theorem stage_clean_congr {config : Config} {raw shown : Text}
    (h : CounterFormula.clean config.encoding shown = CounterFormula.clean config.encoding raw) :
    Stage.clean config shown = Stage.clean config raw := by
  rw [Stage.clean, h, Stage.clean]

/-- **Cleaning ends and is stable.**  Rounds repeated from a raw text on come to an end, after the
first one in no more of them than the first one has left characters, and end with what `clean`
gives.  Cleaning that again gives the same text with the same faults, and so does cleaning what a
reader is shown of it. -/
theorem settles_clean (config : Config) (raw : Text) :
    let encoding := config.encoding
    let cleaned := CounterFormula.clean encoding raw
    (∃ count ≤ (round encoding raw).length, Settles encoding (round encoding raw) count cleaned) ∧
      CounterFormula.clean encoding cleaned = cleaned ∧
      CounterFormula.clean encoding (displayed cleaned) = cleaned ∧
      Stage.clean config cleaned = Stage.clean config raw ∧
      Stage.clean config (displayed cleaned) = Stage.clean config raw := by
  intro encoding cleaned
  have hglyph : summationGlyph ∉ cleaned := (folded_clean encoding raw).glyph_not_mem
  have hagain : CounterFormula.clean encoding cleaned = cleaned :=
    clean_of_plainSigns_eq (plainSigns_eq_self hglyph)
  have hshown : CounterFormula.clean encoding (displayed cleaned) = cleaned :=
    clean_of_plainSigns_eq (plainSigns_displayed hglyph)
  refine ⟨?_, hagain, hshown, stage_clean_congr hagain, stage_clean_congr hshown⟩
  obtain ⟨count, hcount, hsettles⟩ := exists_settles (folded_round encoding raw)
  rw [← clean_eq_settle_round] at hsettles
  exact ⟨count, hcount, hsettles⟩

end CounterFormula.Clean
