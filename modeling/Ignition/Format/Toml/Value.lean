import Ignition.Decimal.Shortest
import Ignition.Format.Flat
import Ignition.Format.Toml.DateTime

/-!
# TOML values

A document of this format is a tree: tables with named values, arrays, and at the leaves texts, numbers, truth values, dates and
times. Its entries are the leaves, with the way to each leaf as its key.
-/

namespace Ignition.Toml

open Decimal

/-- A value. -/
inductive Value where
  /-- Text. -/
  | string (text : String)
  /-- An integer of 64 bits. -/
  | integer (value : Int)
  /-- A floating-point number. -/
  | float (value : Binary64)
  /-- A truth value. -/
  | flag (value : Bool)
  /-- A date or a time. -/
  | dateTime (value : DateTime)
  /-- An array. -/
  | array (items : List Value)
  /-- A table with its values by name. -/
  | table (entries : List (String × Value))
deriving Repr, Inhabited

namespace Value

/-- How floating-point numbers are written: never with an exponent, and whole numbers without a point. -/
def layout : Layout where
  leastPositional := none
  greatestPositional := none
  keepsFraction := false
  infinity := "inf"
  undefined := "NaN"

mutual

/-- The entries that a value has below a key. -/
def flatten (key : String) : Value → Entries
  | string text => [(key, text)]
  | integer value => [(key, Text.signedDecimal value)]
  | float value => [(key, layout.write value)]
  | flag value => [(key, if value then "true" else "false")]
  | dateTime value => [(key, value.text)]
  | array items => flattenItems key 0 items
  | table entries => flattenTable key entries

/-- The entries of the items of an array, from an index on. -/
def flattenItems (key : String) (index : Nat) : List Value → Entries
  | [] => []
  | value :: rest => flatten (Flat.item key index) value ++ flattenItems key (index + 1) rest

/-- The entries of a table. -/
def flattenTable (key : String) : List (String × Value) → Entries
  | [] => []
  | (name, value) :: rest => flatten (Flat.below key name) value ++ flattenTable key rest

end

end Value

end Ignition.Toml
