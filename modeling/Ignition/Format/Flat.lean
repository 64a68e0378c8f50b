import Ignition.Config.Entries
import Ignition.Text.Integer

/-!
# Flat keys

A tree of named values is flattened by giving each leaf a key made of the way to it: names with dots between them, and indices in
brackets behind what they index.
-/

namespace Ignition.Flat

/-- The key of a name below a key. -/
def below (key name : String) : String :=
  if key.isEmpty then name else key ++ "." ++ name

/-- The key of an item of a sequence at a key. -/
def item (key : String) (index : Nat) : String :=
  key ++ "[" ++ Text.decimal index ++ "]"

end Ignition.Flat
