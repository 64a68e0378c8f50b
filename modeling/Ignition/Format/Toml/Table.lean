import Ignition.Format.Toml.Value

/-!
# Building tables

The tables of a document grow while it is read, and what may still be added to one depends on how it came to be: by a header of its
own, as a step on the way to the table of a header, or as a step of a dotted key. A table has one header at most; one that was only
passed on the way to another may still get its own. A dotted key adds to tables that dotted keys made, and to no others. The last
element of an array of tables stands for the array wherever a way leads through it. A name has one value.
-/

namespace Ignition.Toml

/-- How a table came to be. -/
inductive Making where
  /-- By a header, or as the root. -/
  | header
  /-- As a step on the way to the table of a header. -/
  | passed
  /-- As a step of a dotted key. -/
  | dotted
deriving DecidableEq, Repr, Inhabited

/-- What a name in an unfinished table stands for. -/
inductive Item where
  /-- A finished value. -/
  | value (value : Value)
  /-- A table that may still grow. -/
  | table (making : Making) (contents : List (String × Item))
  /-- An array of tables, the last of which may still grow. -/
  | tables (elements : List (List (String × Item)))
deriving Repr, Inhabited

/-- What an unfinished table holds, in the order of writing. -/
abbrev Contents := List (String × Item)

/-- What is wrong with the way in which tables are put together. -/
inductive TableError where
  /-- A name is given twice, or a table is extended that is complete. -/
  | repeated (name : String)
  /-- A way leads through something that is no table. -/
  | notTable (name : String)
deriving DecidableEq, Repr, Inhabited

namespace Contents

/-- What a name stands for. -/
def item? (contents : Contents) (name : String) : Option Item :=
  (List.find? (·.1 = name) contents).map (·.2)

/-- The contents with a name standing for something else; a new name comes last. -/
def set (contents : Contents) (name : String) (item : Item) : Contents :=
  if contents.any (·.1 = name) then contents.map fun (known, old) => if known = name then (known, item) else (known, old)
  else contents ++ [(name, item)]

/-- Changes the table that a way leads to. Tables that are missing on the way are made, as `step` says. -/
def change (step : Making) (how : Making → Contents → Except TableError Contents) :
    (way : List String) → Making → Contents → Except TableError Contents
  | [], making, contents => how making contents
  | name :: way, _, contents =>
    match contents.item? name with
    | none => do return contents.set name (.table step (← change step how way step []))
    | some (.value _) => .error (.notTable name)
    | some (.table making inner) =>
      if step = .dotted && making = .header then .error (.repeated name)
      else do return contents.set name (.table making (← change step how way making inner))
    | some (.tables elements) => do
      let last ← change step how way .header (elements.getLast?.getD [])
      return contents.set name (.tables (elements.dropLast ++ [last]))

/-- Gives a dotted key a value. -/
def assign (way : List String) (name : String) (value : Value) : Contents → Except TableError Contents :=
  change .dotted (fun making contents =>
    if !way.isEmpty && making ≠ .dotted then .error (.repeated name)
    else match contents.item? name with
      | some _ => .error (.repeated name)
      | none => .ok (contents.set name (.value value))) way .header

/-- Opens the table of a header. -/
def openTable (way : List String) (name : String) : Contents → Except TableError Contents :=
  change .passed (fun _ contents =>
    match contents.item? name with
    | none => .ok (contents.set name (.table .header []))
    | some (.table .passed inner) => .ok (contents.set name (.table .header inner))
    | some _ => .error (.repeated name)) way .header

/-- Opens the next element of an array of tables. -/
def openElement (way : List String) (name : String) : Contents → Except TableError Contents :=
  change .passed (fun _ contents =>
    match contents.item? name with
    | none => .ok (contents.set name (.tables [[]]))
    | some (.tables elements) => .ok (contents.set name (.tables (elements ++ [[]])))
    | some _ => .error (.repeated name)) way .header

/-- Gives a dotted key a value in the table that a header opened. -/
def assignBelow (header way : List String) (name : String) (value : Value) : Contents → Except TableError Contents :=
  change .passed (fun _ contents => assign way name value contents) header .header

end Contents

/-- Named values in the order of their names, which is that of the numbers of their characters. -/
def sortedByName (entries : List (String × Value)) : List (String × Value) :=
  entries.mergeSort fun a b => decide (a.1 ≤ b.1)

mutual

/-- The value that an item has once nothing is added any more. -/
def Item.finish : Item → Value
  | .value v => v
  | .table _ contents => .table (sortedByName (finishContents contents))
  | .tables elements => .array (finishElements elements)

/-- The values of contents by name. -/
def finishContents : List (String × Item) → List (String × Value)
  | [] => []
  | (name, item) :: rest => (name, item.finish) :: finishContents rest

/-- The tables of an array. -/
def finishElements : List (List (String × Item)) → List Value
  | [] => []
  | contents :: rest => .table (sortedByName (finishContents contents)) :: finishElements rest

end

/-- The finished table of some contents. -/
def Contents.finish (contents : Contents) : Value :=
  (Item.table .header contents).finish

end Ignition.Toml
