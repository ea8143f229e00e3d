import CounterFormula.Decimal.Shortest

/-!
# Json — Number

What a number in a data file stands for: an integer that fits 64 bits, or a float.  A float is
read from the first digits that fit 64 bits, scaled by powers of ten, and shown by the fewest
digits that stand for it.
-/

namespace CounterFormula.Json

/-- The value of a number. -/
inductive Number where
  | integer (value : Int)
  | float (value : Float)

namespace Number

/-- The greatest integer that fits 64 bits. -/
def wordLimit : Nat := UInt64.size - 1

def digit (c : Char) : Nat :=
  c.toNat - '0'.toNat

/-- The number that digits spell, as far as it fits 64 bits: its value, and the digits from
the first one on that does not fit. -/
def readDigits (value : Nat) : Text → Nat × Text
  | [] => (value, [])
  | c :: rest =>
    if value * 10 + digit c ≤ wordLimit then readDigits (value * 10 + digit c) rest
    else (value, c :: rest)

/-- `value` scaled by `10 ^ exponent`; none when it is too great for a float. -/
def scale (value : Float) (exponent : Int) : Option Float :=
  if 308 < exponent then
    if value == 0 then some value else none
  else if 0 ≤ exponent then
    let scaled := value * Float.ofScientific 1 false exponent.toNat
    if scaled.isInf then none else some scaled
  else if -308 ≤ exponent then
    some (value / Float.ofScientific 1 false (-exponent).toNat)
  else if value == 0 then
    some value
  else
    -- No power of ten above 308 is a float, so a greater divisor is split.
    scale (value / Float.ofScientific 1 false 308) (exponent + 308)
termination_by exponent.natAbs
decreasing_by omega

/-- The parts of a spelling without its sign: the digits before the point, those after it, and
the exponent, where there are any. -/
structure Parts where
  whole : Text
  fraction : Option Text
  exponent : Option Int

/-- A spelled exponent. -/
def readExponent (text : Text) : Int :=
  let value (digits : Text) : Nat := digits.foldl (fun value c => value * 10 + digit c) 0
  match text with
  | '-' :: digits => -(value digits : Int)
  | '+' :: digits => value digits
  | digits => value digits

/-- The parts of an unsigned spelling. -/
def partsOf (text : Text) : Parts :=
  let whole := text.takeWhile Char.isDigit
  let (fraction, rest) :=
    match text.dropWhile Char.isDigit with
    | '.' :: rest => (some (rest.takeWhile Char.isDigit), rest.dropWhile Char.isDigit)
    | rest => (none, rest)
  ⟨whole, fraction, match rest with
    | _ :: exponent => some (readExponent exponent)
    | [] => none⟩

/-- The greatest exponent that is told apart from an unbounded one. -/
def exponentLimit : Nat := Nat.pow 2 31 - 1

/-- The float that an unsigned spelling stands for; none when it is out of range. -/
def readFloat (parts : Parts) : Option Float :=
  let (significand, excess) := readDigits 0 parts.whole
  let fraction := parts.fraction.getD []
  let (significand, ignored) := readDigits significand fraction
  let shift : Int := excess.length - (fraction.length - ignored.length : Nat)
  let exponent := parts.exponent.getD 0
  if exponentLimit < exponent.natAbs then
    if significand ≠ 0 ∧ 0 < exponent then none else some 0
  else
    scale significand.toUInt64.toFloat (shift + exponent)

/-- What a spelling stands for; none when it is out of range. -/
def ofSpelling? (spelling : Text) : Option Number :=
  let (negative, unsigned) :=
    match spelling with
    | '-' :: rest => (true, rest)
    | rest => (false, rest)
  let parts := partsOf unsigned
  let (whole, excess) := readDigits 0 parts.whole
  let isWhole := parts.fraction.isNone && parts.exponent.isNone && excess.isEmpty
  if isWhole && !negative then some (.integer whole)
  else if isWhole && 0 < whole && whole ≤ Nat.pow 2 63 then some (.integer (-whole))
  else (readFloat parts).map fun value => .float (if negative then -value else value)

/-! ### Showing -/

/-- An exponent with its sign. -/
def showExponent (exponent : Int) : Text :=
  (if exponent < 0 then '-' else '+') :: Nat.toDigits 10 exponent.natAbs

/-- The text of a decimal.  From 10⁻⁵ on and below 10¹⁶ the notation is positional, and a whole
number ends in `.0`; elsewhere it has an exponent. -/
def showScaled (number : Decimal.Scaled) : Text :=
  let digits := Nat.toDigits 10 number.digits
  let point : Int := digits.length + number.exponent
  if 0 ≤ number.exponent ∧ point ≤ 16 then
    digits ++ List.replicate number.exponent.toNat '0' ++ ['.', '0']
  else if 0 < point ∧ point ≤ 16 then
    digits.take point.toNat ++ ['.'] ++ digits.drop point.toNat
  else if -5 < point ∧ point ≤ 0 then
    ['0', '.'] ++ List.replicate (-point).toNat '0' ++ digits
  else
    let lead :=
      match digits with
      | first :: rest@(_ :: _) => first :: '.' :: rest
      | digits => digits
    lead ++ ['e'] ++ showExponent (point - 1)

/-- The shortest text of a finite float. -/
def showFloat (value : Float) : Text :=
  let (mantissa, exponent) := Decimal.magnitude value
  let unsigned :=
    if mantissa = 0 then ['0', '.', '0'] else showScaled (Decimal.shortest mantissa exponent)
  if Nat.pow 2 63 ≤ value.toBits.toNat then '-' :: unsigned else unsigned

/-- The text of a number. -/
def write : Number → Text
  | integer value => (toString value).toList
  | float value => showFloat value

end Number

end CounterFormula.Json
