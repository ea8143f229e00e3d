import CounterFormula.Text.Basic

/-!
# Json — Spelling

How a text is spelled between the quotation marks of a data file.  Reading accepts every
escape; writing escapes quotation marks, backslashes and control characters only.  A pair of
surrogate escapes spells one character, and a surrogate alone spells none.
-/

namespace CounterFormula.Json

/-- The value of a hexadecimal digit. -/
def hexDigit? (c : Char) : Option Nat :=
  if c.isDigit then some (c.toNat - '0'.toNat)
  else if 'a' ≤ c ∧ c ≤ 'f' then some (c.toNat - 'a'.toNat + 10)
  else if 'A' ≤ c ∧ c ≤ 'F' then some (c.toNat - 'A'.toNat + 10)
  else none

/-- The value of four hexadecimal digits. -/
def hexWord? (a b c d : Char) : Option Nat := do
  return ((← hexDigit? a) * 16 + (← hexDigit? b)) * 256 + (← hexDigit? c) * 16 + (← hexDigit? d)

/-- The short escapes: the letter after the backslash and the character it stands for. -/
def shortEscapes : List (Char × Char) :=
  [('"', '"'), ('\\', '\\'), ('/', '/'), ('b', '\x08'), ('f', '\x0c'), ('n', '\n'), ('r', '\r'),
    ('t', '\t')]

/-- A control character may not stand for itself. -/
def isControl (c : Char) : Bool :=
  c.toNat < 0x20

/-- The spelling that `text` begins with, up to a quotation mark, and the text after the mark;
none unless every escape is well formed. -/
def takeSpelling? : Text → Option (Text × Text)
  | [] => none
  | '"' :: rest => some ([], rest)
  | ['\\'] => none
  | '\\' :: 'u' :: a :: b :: c :: d :: rest =>
    if (hexWord? a b c d).isSome then
      (takeSpelling? rest).map fun (spelling, rest) =>
        ('\\' :: 'u' :: a :: b :: c :: d :: spelling, rest)
    else none
  | '\\' :: c :: rest =>
    if (shortEscapes.lookup c).isSome then
      (takeSpelling? rest).map fun (spelling, rest) => ('\\' :: c :: spelling, rest)
    else none
  | c :: rest =>
    if isControl c then none
    else (takeSpelling? rest).map fun (spelling, rest) => (c :: spelling, rest)

/-- A spelling, its quotation mark and the text after them are the text they were taken from. -/
theorem takeSpelling?_append {text spelling rest : Text}
    (h : takeSpelling? text = some (spelling, rest)) : spelling ++ '"' :: rest = text := by
  fun_induction takeSpelling? text generalizing spelling
  all_goals first
    | (cases h; done)
    | (cases h; rfl)
    | (rename_i ih
       obtain ⟨taken, found, same⟩ := Option.map_eq_some_iff.mp h
       cases same
       simp [ih found])

theorem length_takeSpelling? {text spelling rest : Text}
    (h : takeSpelling? text = some (spelling, rest)) : rest.length < text.length := by
  simp only [← takeSpelling?_append h, List.length_append, List.length_cons]
  omega

/-- The text that a well-formed spelling stands for; none when it holds a surrogate alone. -/
def unspell? : Text → Option Text
  | [] => some []
  | '\\' :: 'u' :: a :: b :: c :: d :: '\\' :: 'u' :: e :: f :: g :: h :: rest => do
    let first ← hexWord? a b c d
    if 0xD800 ≤ first ∧ first < 0xDC00 then
      let second ← hexWord? e f g h
      if 0xDC00 ≤ second ∧ second < 0xE000 then
        let c := Char.ofNat (0x10000 + (first - 0xD800) * 0x400 + (second - 0xDC00))
        return c :: (← unspell? rest)
      else none
    else if 0xDC00 ≤ first ∧ first < 0xE000 then none
    else
      return Char.ofNat first :: (← unspell? ('\\' :: 'u' :: e :: f :: g :: h :: rest))
  | '\\' :: 'u' :: a :: b :: c :: d :: rest => do
    let word ← hexWord? a b c d
    if 0xD800 ≤ word ∧ word < 0xE000 then none
    else return Char.ofNat word :: (← unspell? rest)
  | '\\' :: c :: rest => do
    let c ← shortEscapes.lookup c
    return c :: (← unspell? rest)
  | c :: rest => do return c :: (← unspell? rest)

/-- The spelling of one character. -/
def spellChar (c : Char) : Text :=
  match c with
  | '"' => ['\\', '"']
  | '\\' => ['\\', '\\']
  | '\x08' => ['\\', 'b']
  | '\x0c' => ['\\', 'f']
  | '\n' => ['\\', 'n']
  | '\r' => ['\\', 'r']
  | '\t' => ['\\', 't']
  | c =>
    if isControl c then
      ['\\', 'u', '0', '0'] ++ Nat.toDigits 16 (c.toNat / 16) ++ Nat.toDigits 16 (c.toNat % 16)
    else [c]

/-- The spelling of `text`. -/
def spell (text : Text) : Text :=
  text.flatMap spellChar

end CounterFormula.Json
