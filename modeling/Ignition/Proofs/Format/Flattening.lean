import Ignition.Format.Toml.Value
import Ignition.Format.Yaml.Value

/-!
# Flattening in two formats

A tree of tables and arrays with texts, integers and truth values at its leaves can be written in YAML and in TOML. Flattening gives the
same keys and the same texts in both, in the same order, but for one thing: a leaf that has no key, because the names on the way to it are
all empty, is left out by YAML and is an entry under the empty key in TOML (`flatten_alike`).
-/

namespace Ignition

namespace Flat

variable {key name : String} {index : Nat}

/-- The key below another one is empty only if both are. -/
theorem below_eq_empty_iff : below key name = "" ↔ key = "" ∧ name = "" := by
  unfold below
  split <;> simp_all

/-- The key of an item is never empty. -/
theorem item_ne_empty : item key index ≠ "" := by
  simp [item]

/-- The entries that have a key. -/
def keyed (entries : Entries) : Entries :=
  entries.filter fun (key, _) => key ≠ ""

/-- The entries with keys among some entries and others behind them. -/
theorem keyed_append (front back : Entries) : keyed (front ++ back) = keyed front ++ keyed back :=
  List.filter_append front back

end Flat

/-- What can stand at a leaf in both formats. -/
inductive Leaf where
  /-- Text. -/
  | text (value : String)
  /-- An integer. -/
  | integer (value : Int)
  /-- A truth value. -/
  | flag (value : Bool)
deriving Repr

namespace Leaf

/-- A leaf as the text of a value. -/
def render : Leaf → String
  | text value => value
  | integer value => Text.signedDecimal value
  | flag value => if value then "true" else "false"

/-- A leaf in YAML. -/
def toYaml : Leaf → Yaml.Scalar
  | text value => .string value
  | integer value => .integer value
  | flag value => .flag value

/-- A leaf in TOML. -/
def toToml : Leaf → Toml.Value
  | text value => .string value
  | integer value => .integer value
  | flag value => .flag value

variable (leaf : Leaf)

/-- YAML writes a leaf as its text. -/
theorem render_toYaml : leaf.toYaml.render = leaf.render := by
  cases leaf with
  | text value => rfl
  | integer value => rfl
  | flag value => cases value <;> rfl

/-- TOML writes a leaf as its text, whatever the key. -/
theorem flatten_toToml (key : String) : leaf.toToml.flatten key = [(key, leaf.render)] := by
  cases leaf <;> rw [toToml, Toml.Value.flatten] <;> rfl

end Leaf

/-- A tree of values that both formats can hold. -/
inductive Tree where
  /-- A leaf. -/
  | leaf (value : Leaf)
  /-- An array. -/
  | array (items : List Tree)
  /-- A table with its values by name, in the order in which they are visited. -/
  | table (entries : List (String × Tree))
deriving Repr

namespace Tree

open Flat (keyed keyed_append)

mutual

/-- A tree in YAML: tables are mappings whose keys are texts, and arrays are sequences. -/
def toYaml : Tree → Yaml.Value
  | leaf value => .scalar value.toYaml
  | array items => .sequence (toYamlItems items)
  | table entries => .mapping (toYamlEntries entries)

/-- The items of an array in YAML. -/
def toYamlItems : List Tree → List Yaml.Value
  | [] => []
  | tree :: rest => toYaml tree :: toYamlItems rest

/-- The entries of a table in YAML. -/
def toYamlEntries : List (String × Tree) → List (Yaml.Value × Yaml.Value)
  | [] => []
  | (name, tree) :: rest => (.scalar (.string name), toYaml tree) :: toYamlEntries rest

end

mutual

/-- A tree in TOML. -/
def toToml : Tree → Toml.Value
  | leaf value => value.toToml
  | array items => .array (toTomlItems items)
  | table entries => .table (toTomlEntries entries)

/-- The items of an array in TOML. -/
def toTomlItems : List Tree → List Toml.Value
  | [] => []
  | tree :: rest => toToml tree :: toTomlItems rest

/-- The entries of a table in TOML. -/
def toTomlEntries : List (String × Tree) → List (String × Toml.Value)
  | [] => []
  | (name, tree) :: rest => (name, toToml tree) :: toTomlEntries rest

end

/-- In a tree there is a leaf with some text that has no key: nothing but empty names leads to it. -/
inductive Nameless : Tree → String → Prop
  | leaf (value : Leaf) : Nameless (.leaf value) value.render
  | table {entries : List (String × Tree)} {tree : Tree} {text : String} :
      ("", tree) ∈ entries → Nameless tree text → Nameless (.table entries) text

section Nameless

variable {entries rest : List (String × Tree)} {tree : Tree} {name text : String} {items : List Tree}

/-- A leaf is itself the only text without a name in it. -/
theorem nameless_leaf_iff {value : Leaf} : (leaf value).Nameless text ↔ text = value.render := by
  constructor
  · rintro ⟨⟩
    rfl
  · rintro rfl
    exact .leaf value

/-- An array has no text without a name. -/
theorem not_nameless_array : ¬(array items).Nameless text := by
  rintro ⟨⟩

/-- Nor has an empty table. -/
theorem not_nameless_table_nil : ¬(table []).Nameless text := by
  rintro (_ | ⟨hmem, _⟩)
  cases hmem

/-- A table has a text without a name under an empty key, there or further on. -/
theorem nameless_table_cons : (table ((name, tree) :: rest)).Nameless text ↔
    (name = "" ∧ tree.Nameless text) ∨ (table rest).Nameless text := by
  constructor
  · rintro (_ | ⟨hmem, htree⟩)
    rcases List.mem_cons.mp hmem with heq | hmem
    · cases heq
      exact .inl ⟨rfl, htree⟩
    · exact .inr (.table hmem htree)
  · rintro (⟨rfl, htree⟩ | (_ | ⟨hmem, htree⟩))
    · exact .table (List.mem_cons_self ..) htree
    · exact .table (List.mem_cons_of_mem _ hmem) htree

end Nameless

mutual

/-- YAML has the entries of TOML that have a key. -/
theorem flatten_toYaml (key : String) : (tree : Tree) → tree.toYaml.flatten key = keyed (tree.toToml.flatten key)
  | leaf value => by
    rw [toYaml, toToml, Yaml.Value.flatten, value.render_toYaml, value.flatten_toToml]
    by_cases hkey : key = "" <;> simp [keyed, hkey]
  | array items => by
    rw [toYaml, toToml, Yaml.Value.flatten, Toml.Value.flatten, flattenItems_toYaml]
  | table entries => by
    rw [toYaml, toToml, Yaml.Value.flatten, Toml.Value.flatten, flattenEntries_toYaml]

/-- As a sequence an array has the entries that it has as an array, but for those without a key. -/
theorem flattenItems_toYaml (key : String) (index : Nat) : (items : List Tree) →
    Yaml.Value.flattenItems key index (toYamlItems items) = keyed (Toml.Value.flattenItems key index (toTomlItems items))
  | [] => rfl
  | tree :: rest => by
    rw [toYamlItems, toTomlItems, Yaml.Value.flattenItems, Toml.Value.flattenItems, keyed_append, flatten_toYaml _ tree,
      flattenItems_toYaml _ _ rest]

/-- As a mapping a table has the entries that it has as a table, but for those without a key. -/
theorem flattenEntries_toYaml (key : String) : (entries : List (String × Tree)) →
    Yaml.Value.flattenEntries key (toYamlEntries entries) = keyed (Toml.Value.flattenTable key (toTomlEntries entries))
  | [] => rfl
  | (name, tree) :: rest => by
    have hname : (Yaml.Value.scalar (.string name)).text? = some name := rfl
    rw [toYamlEntries, toTomlEntries, Yaml.Value.flattenEntries, Toml.Value.flattenTable, keyed_append, hname,
      flattenEntries_toYaml key rest, ← flatten_toYaml (Flat.below key name) tree]

end

mutual

/-- The entries of TOML without a key are the leaves that have none. -/
theorem mem_flatten_toToml (key text : String) : (tree : Tree) →
    (("", text) ∈ tree.toToml.flatten key ↔ key = "" ∧ tree.Nameless text)
  | leaf value => by
    rw [toToml, value.flatten_toToml, List.mem_singleton, Prod.mk.injEq, eq_comm, nameless_leaf_iff]
  | array items => by
    rw [toToml, Toml.Value.flatten]
    exact iff_of_false (notMem_flattenItems_toToml key text 0 items) fun h => not_nameless_array h.2
  | table entries => by
    rw [toToml, Toml.Value.flatten, mem_flattenTable_toToml]

/-- No item of an array is without a key. -/
theorem notMem_flattenItems_toToml (key text : String) (index : Nat) : (items : List Tree) →
    ("", text) ∉ Toml.Value.flattenItems key index (toTomlItems items)
  | [] => List.not_mem_nil
  | tree :: rest => by
    rw [toTomlItems, Toml.Value.flattenItems, List.mem_append, mem_flatten_toToml _ text tree]
    rintro (⟨hitem, -⟩ | hrest)
    · exact Flat.item_ne_empty hitem
    · exact notMem_flattenItems_toToml key text (index + 1) rest hrest

/-- A table has a text without a key exactly if it stands under empty keys only. -/
theorem mem_flattenTable_toToml (key text : String) : (entries : List (String × Tree)) →
    (("", text) ∈ Toml.Value.flattenTable key (toTomlEntries entries) ↔ key = "" ∧ (table entries).Nameless text)
  | [] => iff_of_false List.not_mem_nil fun h => not_nameless_table_nil h.2
  | (name, tree) :: rest => by
    rw [toTomlEntries, Toml.Value.flattenTable, List.mem_append, mem_flatten_toToml _ text tree, mem_flattenTable_toToml key text rest,
      Flat.below_eq_empty_iff, nameless_table_cons, and_assoc, ← and_or_left]

end

/-- Two formats flatten a table alike, but for the leaves that have no key: YAML has the entries of TOML that have a key, in the same order,
TOML has an entry without a key for each leaf that has none, and so the two have the same entries if and only if there is no such leaf. -/
theorem flatten_alike (entries : List (String × Tree)) :
    (table entries).toYaml.flatten "" = keyed ((table entries).toToml.flatten "") ∧
      (∀ text, ("", text) ∈ (table entries).toToml.flatten "" ↔ (table entries).Nameless text) ∧
      ((table entries).toYaml.flatten "" = (table entries).toToml.flatten "" ↔ ∀ text, ¬(table entries).Nameless text) := by
  have hkeyed := flatten_toYaml "" (table entries)
  have hnameless (text : String) : ("", text) ∈ (table entries).toToml.flatten "" ↔ (table entries).Nameless text := by
    rw [mem_flatten_toToml, and_iff_right rfl]
  refine ⟨hkeyed, hnameless, ?_⟩
  rw [hkeyed, keyed, List.filter_eq_self]
  constructor
  · intro hall text htext
    have hne := hall ("", text) ((hnameless text).mpr htext)
    simp at hne
  · rintro hnone ⟨key, text⟩ hmem
    have hne : key ≠ "" := by
      rintro rfl
      exact hnone text ((hnameless text).mp hmem)
    simp [hne]

/-- A text under an empty name is no entry in YAML, and one in TOML. -/
theorem text_under_emptyName : (table [("", leaf (.text "x"))]).toYaml.flatten "" = [] ∧
    (table [("", leaf (.text "x"))]).toToml.flatten "" = [("", "x")] := by
  decide +kernel

end Tree

end Ignition
