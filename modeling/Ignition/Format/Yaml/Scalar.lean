import Ignition.Decimal.Shortest

/-!
# Scalars

What a plain scalar means. A few words stand for no value or for a truth value; digits, perhaps behind a sign, for an integer,
also in hexadecimal, octal and binary behind `0x`, `0o` and `0b`; digits with a point or an exponent for a floating-point number,
as do a few words for infinities and for no number. Everything else is text, and so are three things that look like numbers:
decimal digits behind a leading zero, an integer that 64 bits cannot hold, and a number too large for floating point.
-/

namespace Ignition.Yaml

open Decimal

/-- What a scalar means. -/
inductive Scalar where
  /-- No value. -/
  | null
  /-- A truth value. -/
  | flag (value : Bool)
  /-- An integer. -/
  | integer (value : Int)
  /-- A floating-point number. -/
  | float (value : Binary64)
  /-- Text. -/
  | string (value : String)
deriving DecidableEq, Repr, Inhabited

namespace Scalar

/-- How floating-point numbers are written: without an exponent from `1e-5` to below `1e16`, and never as integers. -/
def layout : Layout where
  leastPositional := some (-5)
  greatestPositional := some 15
  keepsFraction := true
  infinity := ".inf"
  undefined := ".nan"

/-- A scalar as the text of a value. -/
def render : Scalar → String
  | null => ""
  | flag true => "true"
  | flag false => "false"
  | integer value => Text.signedDecimal value
  | float value => layout.write value
  | string value => value

/-- Whether two scalars are the same key. -/
def same : Scalar → Scalar → Bool
  | float a, float b => a.sameValue b
  | a, b => a = b

/-- Whether a word stands for no value. -/
def isNullWord (word : String) : Bool :=
  ["null", "Null", "NULL", "~"].contains word

/-- The truth value that a word stands for. -/
def flag? (word : String) : Option Bool :=
  if ["true", "True", "TRUE"].contains word then some true
  else if ["false", "False", "FALSE"].contains word then some false
  else none

/-- A text without one sign at its beginning. -/
def dropSign : List Char → List Char
  | '+' :: rest => rest
  | '-' :: rest => rest
  | text => text

/-- Whether a text is decimal digits with a leading zero that is not all of them. -/
def hasLeadingZero (text : List Char) : Bool :=
  match dropSign text with
  | '0' :: c :: rest => (c :: rest).all Text.isDigit
  | _ => false

/-- The number that digits behind `0x`, `0o` or `0b` write. -/
def radixNatural? : List Char → Option Nat
  | '0' :: 'x' :: digits => Text.natural? 16 digits
  | '0' :: 'o' :: digits => Text.natural? 8 digits
  | '0' :: 'b' :: digits => Text.natural? 2 digits
  | _ => none

/-- The integer that a text writes, of whatever size. -/
def integer? : List Char → Option Int
  | '+' :: rest => (magnitude? rest).map Int.ofNat
  | '-' :: rest => (magnitude? rest).map fun n => -Int.ofNat n
  | rest => (magnitude? rest).map Int.ofNat
where
  /-- The number that a text without a sign writes. -/
  magnitude? (text : List Char) : Option Nat :=
    (radixNatural? text).or (if hasLeadingZero text then none else Text.natural? 10 text)

/-- Whether 64 bits hold an integer, with or without a sign. -/
def fits64 (n : Int) : Bool :=
  Text.leastInt64 ≤ n && n ≤ Int.ofNat Text.greatestNat64

/-- The floating-point number that a text writes. -/
def float? (text : List Char) : Option Binary64 :=
  let unsigned := match text with
    | '+' :: rest => rest
    | text => text
  let word := String.ofList unsigned
  if [".inf", ".Inf", ".INF"].contains word then some (.infinite false)
  else if ["-.inf", "-.Inf", "-.INF"].contains (String.ofList text) then some (.infinite true)
  else if [".nan", ".NaN", ".NAN"].contains (String.ofList text) then some .undefined
  else if text.head? = some '+' && (unsigned.head? = some '+' || unsigned.head? = some '-') then none
  else ((Literal.read? unsigned).map Literal.value).filter Binary64.isFinite

/-- What a plain scalar means. -/
def ofPlain (word : String) : Scalar :=
  if word.isEmpty || isNullWord word then null
  else match flag? word with
    | some value => flag value
    | none =>
      match integer? word.toList with
      | some n => if fits64 n then integer n else string word
      | none =>
        if hasLeadingZero word.toList then string word
        else match float? word.toList with
          | some value => float value
          | none => string word

/-- The tag of truth values. -/
def flagTag : String := "tag:yaml.org,2002:bool"

/-- The tag of integers. -/
def integerTag : String := "tag:yaml.org,2002:int"

/-- The tag of floating-point numbers. -/
def floatTag : String := "tag:yaml.org,2002:float"

/-- The tag of the missing value. -/
def nullTag : String := "tag:yaml.org,2002:null"

/-- What a scalar means under a tag, if any; a tag for a kind of value asks for a text of that kind, and any other tag makes the
scalar text. -/
def ofTagged? (tag : Option String) (isPlain : Bool) (word : String) : Option Scalar :=
  match tag with
  | none => some (if isPlain then ofPlain word else string word)
  | some tag =>
    if tag = flagTag then (flag? word).map flag
    else if tag = integerTag then ((integer? word.toList).filter fits64).map integer
    else if tag = floatTag then (float? word.toList).map float
    else if tag = nullTag then (if isNullWord word then some null else none)
    else some (string word)

end Scalar

end Ignition.Yaml
