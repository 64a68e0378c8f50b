import Ignition.Decimal.Binary64

/-!
# The shortest decimal that reads back

The numbers that round to `significand · 2 ^ exponent` form an interval around it; its ends belong to it exactly if the
significand is even. The shortest decimal of the number is found on grids: the multiples of a power of ten. From one digit
upwards, the two neighbours of the number on the grid for that many digits are tested, and the first grid with a neighbour in
the interval gives the digits; of two such neighbours the closer one is taken. Seventeen digits always suffice.

The scaling makes the number, the ends of its interval and the grid natural numbers, so each test is exact.
-/

namespace Ignition.Decimal

/-- A positive decimal number, `digits · 10 ^ exponent`. -/
structure Digits where
  /-- The significant digits. -/
  digits : Nat
  /-- The power of ten that the last digit counts. -/
  exponent : Int
deriving DecidableEq, Repr

/-- A positive number and the interval that rounds to it, all in units of one common denominator. -/
structure Rounding where
  /-- The number itself. -/
  value : Nat
  /-- The lower end of the interval. -/
  low : Nat
  /-- The upper end of the interval. -/
  high : Nat
  /-- How many of the units make one. -/
  unit : Nat
  /-- Whether the ends belong to the interval. -/
  closed : Bool

/-- The interval of a number. The unit is a quarter of the distance to the next number, so that the middle between neighbours
is a natural number also below a power of two, where the distance halves. -/
def Rounding.ofBinary (significand : Nat) (exponent : Int) : Rounding :=
  let below := if significand = Nat.pow 2 52 && Binary64.leastExponent < exponent then 1 else 2
  let scale := Nat.pow 2 (exponent - 2).toNat
  { value := 4 * significand * scale
    low := (4 * significand - below) * scale
    high := (4 * significand + 2) * scale
    unit := Nat.pow 2 (2 - exponent).toNat
    closed := significand % 2 = 0 }

/-- Whether `n / d`, with `n` counted in units, lies in the interval. -/
def Rounding.holds (r : Rounding) (n d : Nat) : Bool :=
  if r.closed then r.low * d ≤ n && n ≤ r.high * d else r.low * d < n && n < r.high * d

/-- The neighbour of the number among the multiples of `10 ^ exponent` that rounds to it; the closer one if both do. -/
def Rounding.onGrid (r : Rounding) (exponent : Int) : Option Digits :=
  let up := Nat.pow 10 exponent.toNat
  let down := Nat.pow 10 (-exponent).toNat
  let step := r.unit * up
  let lower := r.value * down / step
  let gap := r.value * down - lower * step
  let lowerHolds := lower ≠ 0 && r.holds (lower * step) down
  let upperHolds := r.holds ((lower + 1) * step) down
  if lowerHolds && (!upperHolds || 2 * gap ≤ step) then some ⟨lower, exponent⟩
  else if upperHolds then some ⟨lower + 1, exponent⟩
  else none

/-- How many decimal digits a natural number has. -/
def digitCount (n : Nat) : Nat :=
  (Nat.toDigits 10 n).length

/-- The power of ten of the leading digit of the number. -/
def Rounding.magnitude (r : Rounding) : Int :=
  let whole := r.value / r.unit
  if whole ≠ 0 then Int.ofNat (digitCount whole) - 1
  else
    let inverse := (r.unit + r.value - 1) / r.value
    Int.negOfNat (digitCount (inverse - 1))

/-- The shortest digits, from a grid of `count` digits on; `fuel` bounds the grids tried. -/
def Rounding.search (r : Rounding) : (fuel count : Nat) → Digits
  | 0, _ => ⟨r.value / r.unit, 0⟩
  | fuel + 1, count =>
    match r.onGrid (r.magnitude - Int.ofNat count + 1) with
    | some digits => digits
    | none => r.search fuel (count + 1)

/-- Digits without zeros at their end. -/
def Digits.trimmed (d : Digits) : (fuel : Nat) → Digits
  | 0 => d
  | fuel + 1 =>
    if d.digits ≠ 0 && d.digits % 10 = 0 then Digits.trimmed ⟨d.digits / 10, d.exponent + 1⟩ fuel else d

/-- The shortest decimal that reads back as `significand · 2 ^ exponent`. -/
def shortest (significand : Nat) (exponent : Int) : Digits :=
  ((Rounding.ofBinary significand exponent).search 20 1).trimmed 20

/-- How a format writes a number whose digits are known. -/
structure Layout where
  /-- The least power of ten of the leading digit for which the number is written without an exponent. -/
  leastPositional : Option Int
  /-- The greatest power of ten of the leading digit for which the number is written without an exponent. -/
  greatestPositional : Option Int
  /-- Whether a whole number keeps a point and a zero. -/
  keepsFraction : Bool
  /-- The words for the positive infinity and for no number. -/
  infinity : String
  /-- The word for the value that is no number. -/
  undefined : String

/-- Digits with a point behind the one that counts ones. -/
def Layout.positional (layout : Layout) (d : Digits) : String :=
  let text := Nat.toDigits 10 d.digits
  if 0 ≤ d.exponent then
    String.ofList (text ++ List.replicate d.exponent.toNat '0') ++ (if layout.keepsFraction then ".0" else "")
  else
    let places := (-d.exponent).toNat
    let padded := List.replicate (places + 1 - text.length) '0' ++ text
    String.ofList (padded.take (padded.length - places)) ++ "." ++ String.ofList (padded.drop (padded.length - places))

/-- Digits with a point behind the first one, and the power of ten behind the letter `e`. -/
def Layout.scientific (d : Digits) : String :=
  let text := Nat.toDigits 10 d.digits
  let power := d.exponent + Int.ofNat text.length - 1
  let mantissa := String.ofList (text.take 1) ++
    (if text.length = 1 then "" else "." ++ String.ofList (text.drop 1))
  mantissa ++ "e" ++ (if power < 0 then "-" else "") ++ String.ofList (Nat.toDigits 10 power.natAbs)

/-- A number in a format. -/
def Layout.write (layout : Layout) : Binary64 → String
  | .undefined => layout.undefined
  | .infinite negative => (if negative then "-" else "") ++ layout.infinity
  | .finite negative significand exponent =>
    let d : Digits := if significand = 0 then ⟨0, 0⟩ else shortest significand exponent
    let power := d.exponent + Int.ofNat (digitCount d.digits) - 1
    let isPositional := layout.leastPositional.all (· ≤ power) && layout.greatestPositional.all (power ≤ ·)
    (if negative then "-" else "") ++ (if isPositional then layout.positional d else Layout.scientific d)

end Ignition.Decimal
