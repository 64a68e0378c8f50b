import Ignition.Text.Basic

/-!
# Integers in text

An integer is written as digits of a radix behind an optional sign, with at least one digit and nothing else: no blank, no
underscore. Letters stand for the digits from ten on, in either case. The readers here give the mathematical integer; a reader
that serves a fixed width checks the range behind it.
-/

namespace Ignition.Text

/-- The value of a digit of a radix up to 36. -/
def digitValue? (radix : Nat) (c : Char) : Option Nat :=
  let value :=
    if '0' ≤ c && c ≤ '9' then some (c.toNat - '0'.toNat)
    else if 'a' ≤ c && c ≤ 'z' then some (c.toNat - 'a'.toNat + 10)
    else if 'A' ≤ c && c ≤ 'Z' then some (c.toNat - 'A'.toNat + 10)
    else none
  value.filter (· < radix)

/-- Whether a character is a decimal digit. -/
def isDigit (c : Char) : Bool :=
  '0' ≤ c && c ≤ '9'

/-- The number that digits continue, given the value of the digits before them; `none` at anything that is no digit. -/
def digitsFrom? (radix : Nat) : Nat → List Char → Option Nat
  | value, [] => some value
  | value, c :: rest => (digitValue? radix c).bind fun digit => digitsFrom? radix (value * radix + digit) rest

/-- The natural number that one or more digits write. -/
def natural? (radix : Nat) : List Char → Option Nat
  | [] => none
  | c :: rest => digitsFrom? radix 0 (c :: rest)

/-- The integer that digits behind an optional sign write. -/
def integer? (radix : Nat) : List Char → Option Int
  | '+' :: digits => (natural? radix digits).map Int.ofNat
  | '-' :: digits => (natural? radix digits).map fun n => -Int.ofNat n
  | digits => (natural? radix digits).map Int.ofNat

/-- The integer a text writes, if it lies in the range given. -/
def integerIn? (least greatest : Int) (radix : Nat) (text : List Char) : Option Int :=
  (integer? radix text).filter fun n => least ≤ n && n ≤ greatest

/-- The least 64-bit integer. -/
def leastInt64 : Int := -9223372036854775808

/-- The greatest 64-bit integer. -/
def greatestInt64 : Int := 9223372036854775807

/-- The greatest natural number of 64 bits. -/
def greatestNat64 : Nat := 18446744073709551615

/-- The least 32-bit integer. -/
def leastInt32 : Int := -2147483648

/-- The greatest 32-bit integer. -/
def greatestInt32 : Int := 2147483647

/-- The decimal digits of a natural number. -/
def decimal (n : Nat) : String :=
  String.ofList (Nat.toDigits 10 n)

/-- An integer in decimal, with a minus sign if it is negative. -/
def signedDecimal (n : Int) : String :=
  if n < 0 then "-" ++ decimal n.natAbs else decimal n.natAbs

/-- A natural number in decimal with at least the given number of digits, filled up with zeros. -/
def paddedDecimal (width n : Nat) : String :=
  let digits := Nat.toDigits 10 n
  String.ofList (List.replicate (width - digits.length) '0' ++ digits)

/-- The lower-case hexadecimal digits of a natural number. -/
def hexadecimal (n : Nat) : String :=
  String.ofList (Nat.toDigits 16 n)

/-- Exactly `width` lower-case hexadecimal digits: the low ones, filled up with zeros. -/
def fixedHex (width n : Nat) : String :=
  let digits := Nat.toDigits 16 (n % Nat.pow 16 width)
  String.ofList (List.replicate (width - digits.length) '0' ++ digits)

end Ignition.Text
