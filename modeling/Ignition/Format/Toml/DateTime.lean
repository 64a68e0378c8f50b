import Ignition.Text.Integer

/-!
# Dates and times

A date, a time of day, or both, the latter perhaps with an offset from universal time. They are written in one form, whatever the
form they were read in: the letter `T` between date and time, `Z` for universal time, and no zeros at the end of a fraction of a
second.
-/

namespace Ignition.Toml

/-- A day of the calendar. -/
structure Date where
  /-- The year. -/
  year : Nat
  /-- The month, from one. -/
  month : Nat
  /-- The day of the month, from one. -/
  day : Nat
deriving DecidableEq, Repr, Inhabited

/-- A time of day. -/
structure Time where
  /-- The hour. -/
  hour : Nat
  /-- The minute. -/
  minute : Nat
  /-- The second, which may be a leap second. -/
  second : Nat
  /-- The billionths of a second. -/
  nanosecond : Nat
deriving DecidableEq, Repr, Inhabited

/-- How far a clock is ahead of universal time. -/
inductive Offset where
  /-- Not at all: the time is universal time. -/
  | universal
  /-- By a number of minutes. -/
  | minutes (ahead : Int)
deriving DecidableEq, Repr, Inhabited

/-- A date, a time, or both. -/
inductive DateTime where
  /-- A day. -/
  | date (date : Date)
  /-- A time of day. -/
  | time (time : Time)
  /-- A time on a day, which is a moment if the offset is known. -/
  | moment (date : Date) (time : Time) (offset : Option Offset)
deriving DecidableEq, Repr, Inhabited

/-- Whether a year has a 29th of February. -/
def isLeapYear (year : Nat) : Bool :=
  year % 4 = 0 && (year % 100 ≠ 0 || year % 400 = 0)

/-- How many days a month has. -/
def daysInMonth (year month : Nat) : Nat :=
  if month = 2 then (if isLeapYear year then 29 else 28)
  else if month = 4 || month = 6 || month = 9 || month = 11 then 30
  else 31

/-- Whether the day exists. -/
def Date.isValid (date : Date) : Bool :=
  1 ≤ date.month && date.month ≤ 12 && 1 ≤ date.day && date.day ≤ daysInMonth date.year date.month

/-- Whether the time exists on some day. -/
def Time.isValid (time : Time) : Bool :=
  time.hour ≤ 23 && time.minute ≤ 59 && time.second ≤ 60

/-- The date as text. -/
def Date.text (date : Date) : String :=
  Text.paddedDecimal 4 date.year ++ "-" ++ Text.paddedDecimal 2 date.month ++ "-" ++ Text.paddedDecimal 2 date.day

/-- The fraction of a second as text. -/
def Time.fraction (time : Time) : String :=
  if time.nanosecond = 0 then ""
  else
    let digits := (Text.paddedDecimal 9 time.nanosecond).toList
    "." ++ String.ofList (digits.reverse.dropWhile (· = '0')).reverse

/-- The time as text. -/
def Time.text (time : Time) : String :=
  Text.paddedDecimal 2 time.hour ++ ":" ++ Text.paddedDecimal 2 time.minute ++ ":" ++ Text.paddedDecimal 2 time.second ++
    time.fraction

/-- The offset as text. -/
def Offset.text : Offset → String
  | universal => "Z"
  | minutes ahead =>
    (if ahead < 0 then "-" else "+") ++ Text.paddedDecimal 2 (ahead.natAbs / 60) ++ ":" ++
      Text.paddedDecimal 2 (ahead.natAbs % 60)

/-- The date, the time or both as text. -/
def DateTime.text : DateTime → String
  | date d => d.text
  | time t => t.text
  | moment d t offset => d.text ++ "T" ++ t.text ++ (offset.map Offset.text).getD ""

end Ignition.Toml
