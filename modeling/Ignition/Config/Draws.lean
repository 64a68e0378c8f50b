/-!
# Draws

A random value is drawn afresh whenever it is looked up, and two look-ups need not draw the same, also where both are for one key. So
the numbers that are drawn are known by the look-up: by the *way* that leads to it, step by step into the expansions that it is nested
in, and by its key. They may be any numbers. Whoever looks up finitely many values draws finitely many numbers, so a table holds them.
-/

namespace Ignition

/-- A step on the way to a look-up. Where it leads into a placeholder, it tells this one by the number of the characters behind it in the
same text. -/
inductive Draws.Step where
  /-- To the expansion of the list that a key has. -/
  | list (key : String)
  /-- To the lists of a layer that is read behind a number of others. -/
  | layer (earlier : Nat)
  /-- To the body of a placeholder. -/
  | body (behind : Nat)
  /-- To the key of a placeholder. -/
  | key (behind : Nat)
  /-- To the value of that key. -/
  | value (behind : Nat)
  /-- To the fallback of a placeholder. -/
  | fallback (behind : Nat)
deriving DecidableEq, Repr, Inhabited

/-- The numbers that are drawn. -/
structure Draws where
  /-- The numbers for some look-ups, each known by its way and its key. -/
  table : List ((List Draws.Step × String) × Nat) := []
  /-- The number for every other look-up. -/
  other : Nat
deriving DecidableEq, Repr, Inhabited

namespace Draws

/-- The number for the look-up of a key at the end of a way. -/
def drawn (draws : Draws) (way : List Step) (key : String) : Nat :=
  (draws.table.lookup (way, key)).getD draws.other

/-- The draws with other ways in the place of theirs; those are left out that have no other. -/
def mapWays (change : List Step → Option (List Step)) (draws : Draws) : Draws :=
  { draws with table := draws.table.filterMap fun entry => (change entry.1.1).map fun way => ((way, entry.1.2), entry.2) }

/-- What is left of a way behind a step with which it begins. -/
def behind? (step : Step) : List Step → Option (List Step)
  | [] => none
  | first :: way => if first = step then some way else none

/-- A number stands for the draws that are this number at every look-up. -/
instance (n : Nat) : OfNat Draws n where
  ofNat := { other := n }

end Draws

end Ignition
