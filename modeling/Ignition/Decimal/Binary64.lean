import Ignition.Text.Integer

/-!
# Binary floating point of 64 bits

A finite number of this format is `±significand · 2 ^ exponent`, with a significand below `2 ^ 53` and an exponent between
`-1074` and `971`; the significand has all its 53 bits unless the exponent is the least one. A decimal number is read as the
closest number of the format, and of two equally close ones as the one with the even significand; what lies beyond the greatest
finite number by half a unit or more is infinite. All of this is exact arithmetic on natural numbers.
-/

namespace Ignition.Decimal

/-- A number of the 64-bit format. -/
inductive Binary64 where
  /-- `±significand · 2 ^ exponent`; zero has a sign too. -/
  | finite (negative : Bool) (significand : Nat) (exponent : Int)
  /-- An infinity. -/
  | infinite (negative : Bool)
  /-- The value that is no number. -/
  | undefined
deriving DecidableEq, Repr, Inhabited

namespace Binary64

/-- The least exponent of two. -/
def leastExponent : Int := -1074

/-- The greatest exponent of two. -/
def greatestExponent : Int := 971

/-- The quotient of two natural numbers, rounded to the closest; a tie goes to the even one. -/
def roundQuotient (numerator denominator : Nat) : Nat :=
  let quotient := numerator / denominator
  let rest := numerator % denominator
  if 2 * rest < denominator then quotient
  else if denominator < 2 * rest then quotient + 1
  else if quotient % 2 = 0 then quotient else quotient + 1

/-- The closest number of the format to a positive fraction. The first exponent tried gives the significand 53 or 54 bits; one
step up leaves 53. -/
def ofFraction (negative : Bool) (numerator denominator : Nat) : Binary64 :=
  let scaled (exponent : Int) : Nat × Nat :=
    if 0 ≤ exponent then (numerator, denominator * Nat.pow 2 exponent.toNat)
    else (numerator * Nat.pow 2 (-exponent).toNat, denominator)
  let guess : Int := Int.ofNat numerator.log2 - Int.ofNat denominator.log2 - 53
  let start := max guess leastExponent
  let (n, d) := scaled start
  let exponent := if n / d < Nat.pow 2 53 then start else start + 1
  let (n, d) := scaled exponent
  let significand := roundQuotient n d
  let (significand, exponent) := if significand = Nat.pow 2 53 then (Nat.pow 2 52, exponent + 1) else (significand, exponent)
  if greatestExponent < exponent then .infinite negative else .finite negative significand exponent

/-- The closest number of the format to `±digits · 10 ^ exponent`. Exponents far outside the range of the format are answered at
once, so that no power of ten is computed for them. -/
def ofDecimal (negative : Bool) (digits : Nat) (exponent : Int) : Binary64 :=
  if digits = 0 then .finite negative 0 leastExponent
  else
    let size : Int := Int.ofNat digits.log2 + 1
    if 400 < exponent then .infinite negative
    else if exponent < -400 - size then .finite negative 0 leastExponent
    else if 0 ≤ exponent then ofFraction negative (digits * Nat.pow 10 exponent.toNat) 1
    else ofFraction negative digits (Nat.pow 10 (-exponent).toNat)

/-- Whether the number is neither infinite nor undefined. -/
def isFinite : Binary64 → Bool
  | .finite .. => true
  | _ => false

/-- Equality of values: the two zeros are equal, and so are all undefined values. -/
def sameValue : Binary64 → Binary64 → Bool
  | .finite _ 0 _, .finite _ 0 _ => true
  | a, b => a = b

end Binary64

/-- The parts of a number written in decimal: sign, digits without the point, and the power of ten of the last digit. -/
structure Literal where
  /-- Whether a minus sign stands in front. -/
  negative : Bool
  /-- The digits as one natural number. -/
  digits : Nat
  /-- The power of ten that the last digit counts. -/
  exponent : Int
deriving DecidableEq, Repr

/-- Reads the digits behind a sign: some digits, perhaps a point with further digits, perhaps the letter `e` and an integer. One
digit has to stand before the letter, on either side of the point. -/
def Literal.unsigned? (negative : Bool) (text : List Char) : Option Literal :=
  let whole := text.takeWhile Text.isDigit
  let behind := text.dropWhile Text.isDigit
  let (fraction, behind) := match behind with
    | '.' :: rest => (rest.takeWhile Text.isDigit, rest.dropWhile Text.isDigit)
    | rest => ([], rest)
  match Text.natural? 10 (whole ++ fraction) with
  | none => none
  | some digits =>
    let places := Int.ofNat fraction.length
    match behind with
    | [] => some { negative, digits, exponent := -places }
    | c :: power =>
      if c = 'e' || c = 'E' then
        (Text.integer? 10 power).map fun power => { negative, digits, exponent := power - places }
      else none

/-- Reads a number in decimal, behind an optional sign. -/
def Literal.read? : List Char → Option Literal
  | '+' :: text => unsigned? false text
  | '-' :: text => unsigned? true text
  | text => unsigned? false text

/-- The number of the 64-bit format that a literal stands for. -/
def Literal.value (literal : Literal) : Binary64 :=
  Binary64.ofDecimal literal.negative literal.digits literal.exponent

end Ignition.Decimal
