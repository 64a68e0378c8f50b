import Ignition.Text.Blank
import Ignition.Text.Integer

/-!
# Keys that ask for a random value

A key that begins with `random.` asks for a random value. What follows says of which kind: `int` and `long` for an integer of
32 or 64 bits, the same words with a range for an integer below a bound, `uuid` for a universally unique identifier, and
anything else for a word of 32 hexadecimal digits. A range stands in round or square brackets and is written as `bound` or
`least,bound`; the bound itself is never drawn. A key whose range is malformed, empty or too wide has no value at all.

Which value it is depends on the number that is drawn for the look-up; a request only fixes the shape.
-/

namespace Ignition

/-- What a key asks for. -/
inductive RandomRequest where
  /-- An integer `n` with `least ≤ n` and `n < bound`. -/
  | integer (least bound : Int)
  /-- A universally unique identifier of the random kind. -/
  | uuid
  /-- A word of 32 hexadecimal digits. -/
  | digits
deriving DecidableEq, Repr, Inhabited

namespace RandomRequest

/-- What stands between a pair of brackets. -/
def between? (opening closing text : String) : Option String := do
  Text.dropEnd? closing (← Text.dropStart? opening text)

/-- A 64-bit integer with white space around it. -/
def paddedInteger? (text : List Char) : Option Int :=
  Text.integerIn? Text.leastInt64 Text.greatestInt64 10 (Text.trim text)

/-- The least value and the bound that a range in brackets names; `none` for a malformed or empty one. -/
def range? (text : List Char) : Option (Int × Int) := do
  let inner ← (between? "(" ")" (String.ofList text)).or (between? "[" "]" (String.ofList text))
  let (least, bound) ← match Text.cut ',' inner.toList with
    | some (least, bound) => do pure (← paddedInteger? least, ← paddedInteger? bound)
    | none => do pure (0, ← paddedInteger? inner.toList)
  if least < bound then some (least, bound) else none

/-- Whether a number is a 32-bit integer. -/
def fitsInt32 (n : Int) : Bool :=
  Text.leastInt32 ≤ n && n ≤ Text.greatestInt32

/-- What a key asks for, if it asks for a random value that there is. -/
def ofKey? (key : String) : Option RandomRequest :=
  match "random.".toList.isPrefixOf? key.toList with
  | none => none
  | some kind =>
    if kind = "int".toList then some (integer Text.leastInt32 (Text.greatestInt32 + 1))
    else if kind = "long".toList then some (integer Text.leastInt64 (Text.greatestInt64 + 1))
    else if kind = "uuid".toList then some uuid
    else match "int".toList.isPrefixOf? kind with
      | some text =>
        ((range? text).filter fun (least, bound) => fitsInt32 least && fitsInt32 bound).map fun (least, bound) =>
          integer least bound
      | none =>
        match "long".toList.isPrefixOf? kind with
        | some text => (range? text).map fun (least, bound) => integer least bound
        | none => some digits

/-- The identifier with the last 122 bits of a number; the version digit is 4 and the variant bits are `10`. -/
def uuidText (drawn : Nat) : String :=
  let low := drawn % Nat.pow 2 62
  let middle := drawn / Nat.pow 2 62 % Nat.pow 2 12
  let high := drawn / Nat.pow 2 74 % Nat.pow 2 48
  let tail := Text.fixedHex 16 (Nat.pow 2 63 + low)
  Text.fixedHex 8 (high / Nat.pow 2 16) ++ "-" ++ Text.fixedHex 4 high ++ "-4" ++ Text.fixedHex 3 middle ++ "-" ++
    String.ofList (tail.toList.take 4) ++ "-" ++ String.ofList (tail.toList.drop 4)

/-- The value for a request under the number that is drawn for it. -/
def draw (drawn : Nat) : RandomRequest → String
  | integer least bound => Text.signedDecimal (least + Int.ofNat drawn % (bound - least))
  | uuid => uuidText drawn
  | digits => Text.fixedHex 32 drawn

/-- The random value for a key under the number that is drawn for it. -/
def value? (drawn : Nat) (key : String) : Option String :=
  (ofKey? key).map (draw drawn)

end RandomRequest

end Ignition
