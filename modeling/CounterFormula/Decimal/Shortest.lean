import CounterFormula.Text.Basic

/-!
# Decimal — Shortest

The shortest decimal that reads back as a given binary floating-point number: of all decimals
in the number's rounding interval one with the fewest digits, and of those the nearest.
-/

namespace CounterFormula.Decimal

/-- The number `digits · 10 ^ exponent`. -/
structure Scaled where
  digits : Nat
  exponent : Int
  deriving DecidableEq, Repr

/-- The same number without trailing zeros among its digits. -/
def Scaled.normal (number : Scaled) : Scaled :=
  if number.digits ≠ 0 ∧ number.digits % 10 = 0 then
    normal ⟨number.digits / 10, number.exponent + 1⟩
  else number
termination_by number.digits
decreasing_by omega

/-- The magnitude of a finite float as a mantissa and a power of two. -/
def magnitude (x : Float) : Nat × Int :=
  let bits := x.toBits.toNat
  let fraction := bits % Nat.pow 2 52
  let exponent : Nat := bits / Nat.pow 2 52 % Nat.pow 2 11
  if exponent = 0 then (fraction, -1074) else (Nat.pow 2 52 + fraction, Int.ofNat exponent - 1075)

/-- The numbers that round to one float, as numerators over `denominator`. -/
structure Interval where
  low : Nat
  value : Nat
  high : Nat
  denominator : Nat
  /-- Whether the ends belong to the interval. -/
  closed : Bool

/-- The rounding interval of `mantissa · 2 ^ exponent`: half a unit to either side, but a
quarter below a power of two. -/
def interval (mantissa : Nat) (exponent : Int) : Interval :=
  let numerator := Nat.pow 2 (exponent - 2).toNat
  let below := if mantissa = Nat.pow 2 52 ∧ -1074 < exponent then 1 else 2
  { low := (4 * mantissa - below) * numerator
    value := 4 * mantissa * numerator
    high := (4 * mantissa + 2) * numerator
    denominator := Nat.pow 2 (2 - exponent).toNat
    closed := mantissa % 2 = 0 }

namespace Interval

/-- The multiple of `10 ^ exponent` next to the value that lies in the interval, the nearer of
two. -/
def onGrid? (interval : Interval) (exponent : Int) : Option Scaled :=
  let up := Nat.pow 10 (-exponent).toNat
  let unit := interval.denominator * Nat.pow 10 exponent.toNat
  let low := interval.low * up
  let value := interval.value * up
  let high := interval.high * up
  let inside (digits : Nat) : Bool :=
    if interval.closed then low ≤ digits * unit && digits * unit ≤ high
    else low < digits * unit && digits * unit < high
  let below := value / unit
  let above := below + 1
  let nearer :=
    let toBelow := value - below * unit
    let toAbove := above * unit - value
    if toBelow < toAbove ∨ (toBelow = toAbove ∧ below % 2 = 0) then below else above
  if inside below && inside above then some ⟨nearer, exponent⟩
  else if inside below then some ⟨below, exponent⟩
  else if inside above then some ⟨above, exponent⟩
  else none

end Interval

/-- The number of digits before the point of `mantissa · 2 ^ exponent`. -/
def pointOf (mantissa : Nat) (exponent : Int) : Int :=
  -- The factor is the decimal logarithm of two to five places: the guess is right or one short.
  let guess := ((exponent + Nat.log2 mantissa) * 30103).fdiv 100000 + 1
  if mantissa * Nat.pow 2 exponent.toNat * Nat.pow 10 (-guess).toNat
      < Nat.pow 2 (-exponent).toNat * Nat.pow 10 guess.toNat then guess
  else guess + 1

/-- The shortest decimal that reads back as the positive float `mantissa · 2 ^ exponent`. -/
def shortest (mantissa : Nat) (exponent : Int) : Scaled :=
  let point := pointOf mantissa exponent
  let interval := interval mantissa exponent
  let candidates := (List.range 17).filterMap fun (n : Nat) => interval.onGrid? (point - (n + 1 : Nat))
  (candidates.headD ⟨mantissa, 0⟩).normal

end CounterFormula.Decimal
