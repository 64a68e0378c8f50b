import Ignition.Format.Toml.Reading
import Ignition.Format.Toml.Value

/-!
# Numbers, dates and times in TOML

A number has no leading zeros, and a single underscore may stand between two digits. With a fraction or an exponent it is a
floating-point number; behind `0x`, `0o` or `0b`, and then without a sign, it is an integer in another radix. Four digits and a dash
begin a date, two digits and a colon a time of day. A date that does not exist is an error, and so are an integer that 64 bits cannot
hold and a positive number too large for floating point.
-/

namespace Ignition.Toml

open Decimal

/-- A run of digits without the single underscores between them, and what stands behind it; `none` if there is no digit or an
underscore stands elsewhere. -/
def digitRun? (isDigit : Char → Bool) : List Char → Option (List Char × List Char)
  | [] => none
  | [c] => if isDigit c then some ([c], []) else none
  | c :: '_' :: rest =>
    if isDigit c then (digitRun? isDigit rest).map fun (digits, behind) => (c :: digits, behind) else none
  | c :: d :: rest =>
    if !isDigit c then none
    else if isDigit d then (digitRun? isDigit (d :: rest)).map fun (digits, behind) => (c :: digits, behind)
    else some ([c], d :: rest)

namespace Reading

/-- Takes a run of digits without its underscores. -/
def digitRun (isDigit : Char → Bool) : Reading (List Char) := fun text =>
  match digitRun? isDigit text with
  | some (digits, behind) => .ok (digits, behind)
  | none => .error { problem := "invalid number", left := text.length }

/-- Takes the digits of a whole number, which is a zero or does not begin with one. -/
def wholeDigits : Reading (List Char) := do
  if ← takes "0" then return ['0']
  digitRun Text.isDigit

/-- Takes a sign, if one is here, and tells whether it is a minus sign. -/
def sign : Reading Bool := do
  if ← takes "-" then return true
  let _ ← takes "+"
  return false

/-- Takes the exponent of a number, if there is one. -/
def exponent : Reading (Option Int) := do
  if ← takesEither "e" "E" then
    let negative ← sign
    let digits ← digitRun Text.isDigit
    let size := Int.ofNat ((Text.natural? 10 digits).getD 0)
    return some (if negative then -size else size)
  return none

/-- An integer of 64 bits. -/
def checkedInteger (n : Int) : Reading Value :=
  if Text.leastInt64 ≤ n && n ≤ Text.greatestInt64 then return .integer n
  else fail "number too large to fit in target type"

/-- Reads an integer behind the word for its radix. -/
def radixInteger (radix : Nat) : Reading Value := do
  let digits ← digitRun fun c => (Text.digitValue? radix c).isSome
  checkedInteger (Int.ofNat ((Text.natural? radix digits).getD 0))

/-- Reads a decimal number. -/
def decimalNumber : Reading Value := do
  let negative ← sign
  if ← takes "inf" then return .float (.infinite negative)
  if ← takes "nan" then return .float .undefined
  let whole ← wholeDigits
  let fraction ← do
    if ← takes "." then pure (some (← digitRun Text.isDigit)) else pure none
  let exponent ← exponent
  let digits (more : List Char) := (Text.natural? 10 (whole ++ more)).getD 0
  match fraction, exponent with
  | none, none => checkedInteger (if negative then Int.negOfNat (digits []) else Int.ofNat (digits []))
  | fraction, exponent =>
    let places := fraction.getD []
    let value := Binary64.ofDecimal negative (digits places) (exponent.getD 0 - Int.ofNat places.length)
    if value = .infinite false then fail "floating-point number too large"
    return .float value

/-- Takes exactly `count` digits and gives their number. -/
def fixedNumber (count : Nat) : Reading Nat := do
  let text ← get
  match Text.natural? 10 ((text.take count).takeWhile Text.isDigit) with
  | some n =>
    if (text.take count).all Text.isDigit && count ≤ text.length then
      set (text.drop count)
      return n
    else fail "expected a digit"
  | none => fail "expected a digit"

/-- The billionths of a second that the digits of a fraction stand for; digits from the tenth on do not count. -/
def nanoseconds (digits : List Char) : Nat :=
  (Text.natural? 10 ((digits ++ List.replicate 9 '0').take 9)).getD 0

/-- Reads a time of day. -/
def time : Reading Time := do
  let hour ← fixedNumber 2
  expect ":"
  let minute ← fixedNumber 2
  expect ":"
  let second ← fixedNumber 2
  let nanosecond ← do
    if ← takes "." then
      let digits ← takeWhile Text.isDigit
      if digits.isEmpty then fail "expected a digit"
      pure (nanoseconds digits)
    else pure 0
  let time : Time := { hour, minute, second, nanosecond }
  if !time.isValid then fail "time out of range"
  return time

/-- Reads the offset of a time, if there is one. -/
def offset : Reading (Option Offset) := do
  if ← takesEither "Z" "z" then return some .universal
  match ← peek with
  | some '+' | some '-' =>
    let negative ← sign
    let hours ← fixedNumber 2
    expect ":"
    let minutes ← fixedNumber 2
    if 23 < hours || 59 < minutes then fail "offset out of range"
    let ahead := hours * 60 + minutes
    return some (.minutes (if negative then Int.negOfNat ahead else Int.ofNat ahead))
  | _ => return none

/-- Whether a text begins with some digits and a character behind them. -/
def atDigits (count : Nat) (behind : Char) (text : List Char) : Bool :=
  (text.take count).all Text.isDigit && (text.drop count).head? = some behind

/-- Reads a date, perhaps with a time behind it. -/
def date : Reading DateTime := do
  let year ← fixedNumber 4
  expect "-"
  let month ← fixedNumber 2
  expect "-"
  let day ← fixedNumber 2
  let date : Date := { year, month, day }
  if !date.isValid then fail "date out of range"
  let text ← get
  let separated := match text with
    | c :: rest => (c = 'T' || c = 't' || c = ' ') && atDigits 2 ':' rest
    | [] => false
  if !separated then return .date date
  set (text.drop 1)
  let time ← time
  return .moment date time (← offset)

/-- Reads a number, a date or a time. -/
def number : Reading Value := do
  let text ← get
  if atDigits 4 '-' text then return .dateTime (← date)
  if atDigits 2 ':' text then return .dateTime (.time (← time))
  if ← takes "0x" then radixInteger 16
  else if ← takes "0o" then radixInteger 8
  else if ← takes "0b" then radixInteger 2
  else decimalNumber

end Reading

end Ignition.Toml
