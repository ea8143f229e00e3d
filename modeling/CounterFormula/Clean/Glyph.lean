import CounterFormula.Config

/-!
# Clean — Glyph

Folding typographic characters into an encoding: quotation marks, dashes, spaces and signs
become their plain counterparts, and what has none becomes a question mark.

* `holds_of_mem_transliterate`, `transliterate_eq_self`: a folded text has only characters that
  the encoding holds, and a text that has only such stays as it is.
-/

namespace CounterFormula.Clean

/-- What a character outside ASCII but up to U+00FF becomes. -/
def foldUpper (encoding : Encoding) (c : Char) : Text :=
  match encoding with
  | .latin1 => [c]
  | .ascii =>
    if c = '\u00a0' then [' ']
    else if c = '\u00d7' then ['*']
    else if c = '\u00f7' then ['/']
    else ['?']

/-- What a character above U+00FF becomes. -/
def foldHigh (c : Char) : Text :=
  let n := c.toNat
  if n ∈ [0x2018, 0x2019, 0x201A, 0x2032] then ['\'']
  else if n ∈ [0x201C, 0x201D, 0x201E, 0x2033] then ['"']
  else if (0x2010 ≤ n ∧ n ≤ 0x2015) ∨ n = 0x2212 then ['-']
  else if n = 0x2026 then ['.', '.', '.']
  else if (0x2002 ≤ n ∧ n ≤ 0x200A) ∨ n = 0x202F then [' ']
  else if n = 0x200B ∨ n = 0xFEFF then []
  else if n = 0x2215 then ['/']
  else if n = 0x2217 ∨ n = 0x22C5 then ['*']
  else ['?']

/-- What `c` becomes in `encoding`. -/
def foldChar (encoding : Encoding) (c : Char) : Text :=
  if c.toNat < 0x80 then [c]
  else if c.toNat ≤ 0xFF then foldUpper encoding c
  else foldHigh c

/-- `text` folded into `encoding`. -/
def transliterate (encoding : Encoding) (text : Text) : Text :=
  text.flatMap (foldChar encoding)

/-! ### Laws -/

/-- The last code point of an encoding. -/
def lastOf : Encoding → Nat
  | .latin1 => 0xFF
  | .ascii => 0x7F

/-- The characters an encoding holds. -/
def Holds (encoding : Encoding) (c : Char) : Prop :=
  c.toNat ≤ lastOf encoding

instance (encoding : Encoding) (c : Char) : Decidable (Holds encoding c) :=
  inferInstanceAs (Decidable (_ ≤ _))

theorem holds_of_lt {encoding : Encoding} {c : Char} (h : c.toNat < 0x80) : Holds encoding c := by
  cases encoding <;> simp only [Holds, lastOf] <;> omega

theorem foldChar_eq_of_holds {encoding : Encoding} {c : Char} (h : Holds encoding c) :
    foldChar encoding c = [c] := by
  by_cases hc : c.toNat < 0x80
  · simp [foldChar, hc]
  · cases encoding with
    | latin1 => simp only [Holds, lastOf] at h; simp [foldChar, foldUpper, hc, h]
    | ascii => simp only [Holds, lastOf] at h; omega

theorem holds_of_mem_foldHigh {encoding : Encoding} {c d : Char} (h : d ∈ foldHigh c) :
    Holds encoding d := by
  have hall : ∀ x ∈ ['\'', '"', '-', '.', ' ', '/', '*', '?'], x.toNat < 0x80 := by simp
  refine holds_of_lt (hall d ?_)
  revert h
  unfold foldHigh
  dsimp only
  repeat' split
  all_goals simp +contextual

theorem holds_of_mem_foldUpper {encoding : Encoding} {c d : Char} (hc : c.toNat ≤ 0xFF)
    (h : d ∈ foldUpper encoding c) : Holds encoding d := by
  cases encoding with
  | latin1 => obtain rfl := List.mem_singleton.mp h; exact hc
  | ascii =>
    have hall : ∀ x ∈ [' ', '*', '/', '?'], x.toNat < 0x80 := by simp
    refine holds_of_lt (hall d ?_)
    revert h
    unfold foldUpper
    dsimp only
    repeat' split
    all_goals simp +contextual

theorem holds_of_mem_foldChar {encoding : Encoding} {c d : Char} (h : d ∈ foldChar encoding c) :
    Holds encoding d := by
  unfold foldChar at h
  split at h
  next hc => obtain rfl := List.mem_singleton.mp h; exact holds_of_lt hc
  next =>
    split at h
    next hc => exact holds_of_mem_foldUpper hc h
    next => exact holds_of_mem_foldHigh h

theorem holds_of_mem_transliterate {encoding : Encoding} {text : Text} {c : Char}
    (h : c ∈ transliterate encoding text) : Holds encoding c := by
  obtain ⟨d, _, hd⟩ := List.mem_flatMap.mp h
  exact holds_of_mem_foldChar hd

theorem transliterate_eq_self {encoding : Encoding} {text : Text}
    (h : ∀ c ∈ text, Holds encoding c) : transliterate encoding text = text := by
  induction text with
  | nil => rfl
  | cons c rest ih =>
    have hc := foldChar_eq_of_holds (h c (by simp))
    have hrest := ih fun d hd => h d (by simp [hd])
    simp only [transliterate, List.flatMap_cons] at hrest ⊢
    rw [hc, hrest]; rfl

end CounterFormula.Clean
