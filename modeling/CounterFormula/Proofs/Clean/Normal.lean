import CounterFormula.Proofs.Clean.Footnotes
import CounterFormula.Proofs.Clean.Rounds

/-!
# Clean — Normal

The normal form that cleaning ends with.  In a normal text (`Normal`) no character is left to fold
and no rule has a place where it applies.  The rounds only end when the rules *together* change
nothing, but no rule can undo what another did, for each of them either passes over what it reads or
takes something out.  So in the end each of them, for itself, has nothing left to do.

* `normal_iff_clean_eq`: the normal texts are those that cleaning leaves as they are.
* `normal_clean`: a cleaned text is normal, whatever the raw text and the encoding.
-/

namespace CounterFormula.Clean

open Lexer (summationGlyph)

/-- Nothing is left to do: no character to fold, and no rule has a place where it applies. -/
structure Normal (encoding : Encoding) (text : Text) : Prop where
  /-- The encoding holds every character. -/
  folded : Folded encoding text
  /-- Summation signs are plain. -/
  plain : summationGlyph ∉ text
  /-- No noise word occurs. -/
  noiseless : ∀ word ∈ noiseWords, ¬ word <:+: text
  /-- A parenthesized list of numbers stands behind a sign and a counter. -/
  footnotes : ∀ before rest, text = before ++ rest → BeginsFootnote rest → EndsWithCallee before
  /-- No space separates a sigil from its name. -/
  sigils : Nowhere SigilSpace text
  /-- No space stands behind a reference's path. -/
  references : Nowhere ReferenceSpace text
  /-- No opening operator is followed by two hash marks. -/
  hashes : Nowhere HashMarks text
  /-- No space stands behind a dot. -/
  dots : Nowhere DotSpace text

variable {encoding : Encoding} {raw text : Text}

/-- What the encoding holds and the rules leave as it is, is normal, and nothing else. -/
theorem normal_iff_strip_eq : Normal encoding text ↔ Folded encoding text ∧ strip text = text := by
  rw [strip_eq_self_iff, apply_footnote_eq_self_iff]
  constructor
  · intro h
    exact ⟨h.folded, h.footnotes, h.noiseless, h.sigils, h.references, h.hashes, h.dots⟩
  · rintro ⟨hfolded, hfootnotes, hnoise, hsigils, hreferences, hhashes, hdots⟩
    exact ⟨hfolded, hfolded.glyph_not_mem, hnoise, hfootnotes, hsigils, hreferences, hhashes, hdots⟩

/-- **The normal texts** are those that cleaning leaves as they are. -/
theorem normal_iff_clean_eq : Normal encoding raw ↔ clean encoding raw = raw := by
  rw [normal_iff_strip_eq]
  constructor
  · rintro ⟨hfolded, hstrip⟩
    rw [clean, plainSigns_eq_self hfolded.glyph_not_mem, transliterate_eq_self hfolded,
      settle_of_strip_eq hstrip]
  · intro h
    rw [← h]
    exact ⟨folded_clean encoding raw, strip_settle _⟩

/-- **A cleaned text is normal**, for every rule at once: whatever the raw text and the encoding,
no character is left to fold and no rule has anything left to do.  Cleaning does no more than that:
it leaves a raw text as it is just when the text is normal already. -/
theorem normal_clean (encoding : Encoding) (raw : Text) :
    Normal encoding (clean encoding raw) ∧ (Normal encoding raw ↔ clean encoding raw = raw) :=
  ⟨normal_iff_strip_eq.mpr ⟨folded_clean encoding raw, strip_settle _⟩, normal_iff_clean_eq⟩

end CounterFormula.Clean
