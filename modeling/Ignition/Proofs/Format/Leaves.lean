import Ignition.Format.Formats
import Ignition.Proofs.Format.Flattening
import Ignition.Proofs.Format.Paths

/-!
# Flattening keeps every leaf

A file in YAML or TOML is a tree, and flattening gives one entry for each of its leaves, under the key of the way to it. If the names on
the ways are not empty and have neither dots nor opening brackets, then two leaves have one key only if they have one way; and if no two
have, a layer of the entries answers the key of each leaf with its text (`leaves_of_flatten`). In TOML the names in a table are distinct,
and so are the ways. In YAML the keys of a mapping are distinct, but a tag does not count, neither on a value nor on a key: of two keys
that are one name under different tags, the later one may take the place of the earlier one.
-/

namespace Ignition

open Flat (Leaves IsName)

/-! ## YAML -/

namespace Yaml.Value

mutual

/-- The leaves of a value, in order. Tags do not count, and keys that have no text lead nowhere. -/
def leaves : Value → Leaves
  | scalar value => [([], value.render)]
  | sequence items => .ofItems 0 (leavesOfItems items)
  | mapping entries => .ofNames (leavesOfEntries entries)
  | tagged _ value => leaves value

/-- The leaves of each item of a sequence. -/
def leavesOfItems : List Value → List Leaves
  | [] => []
  | value :: rest => leaves value :: leavesOfItems rest

/-- The leaves of each entry of a mapping, by name. -/
def leavesOfEntries : List (Value × Value) → List (String × Leaves)
  | [] => []
  | (key, value) :: rest =>
    match key.text? with
    | some name => (name, leaves value) :: leavesOfEntries rest
    | none => leavesOfEntries rest

end

/-- A property of the entries of a mapping holds of every mapping in a value. -/
inductive Everywhere (p : List (Value × Value) → Prop) : Value → Prop
  | scalar (value : Scalar) : Everywhere p (.scalar value)
  | sequence {items : List Value} (hitems : ∀ item ∈ items, Everywhere p item) : Everywhere p (.sequence items)
  | mapping {entries : List (Value × Value)} (hentries : p entries) (hvalues : ∀ entry ∈ entries, Everywhere p entry.2) :
      Everywhere p (.mapping entries)
  | tagged (tag : String) {value : Value} (hvalue : Everywhere p value) : Everywhere p (.tagged tag value)

/-- All keys are names, perhaps under tags. -/
def KeysAreNames (entries : List (Value × Value)) : Prop :=
  ∀ entry ∈ entries, ∃ name, entry.1.text? = some name ∧ IsName name

/-- No two keys are one name, whatever their tags. -/
def NamesAreDistinct (entries : List (Value × Value)) : Prop :=
  (entries.filterMap (·.1.text?)).Nodup

section Leaves

variable {key : String} {value : Value} {items : List Value} {entries : List (Value × Value)}

mutual

/-- Below a key that is not empty there is one entry for each leaf. -/
theorem flatten_eq {key : String} (hkey : key ≠ "") : (value : Value) → value.flatten key = value.leaves.entriesBelow key
  | scalar value => by simp [flatten, leaves, Leaves.entriesBelow, Flat.Way.text, hkey]
  | sequence items => by rw [flatten, leaves, flattenItems_eq]
  | mapping entries => by rw [flatten, leaves, flattenEntries_eq hkey]
  | tagged tag value => by rw [flatten, leaves, flatten_eq hkey value]

/-- The entries of a sequence are those of its items, each at its position. -/
theorem flattenItems_eq {key : String} {index : Nat} :
    (items : List Value) → flattenItems key index items = (Leaves.ofItems index (leavesOfItems items)).entriesBelow key
  | [] => rfl
  | value :: rest => by
    rw [flattenItems, leavesOfItems, Leaves.ofItems, Leaves.entriesBelow_append, Leaves.entriesBelow_behind,
      flatten_eq Flat.item_ne_empty value, flattenItems_eq rest, Flat.item_eq]

/-- The entries of a mapping are those of its leaves, each below its name. -/
theorem flattenEntries_eq {key : String} (hkey : key ≠ "") :
    (entries : List (Value × Value)) → flattenEntries key entries = (Leaves.ofNames (leavesOfEntries entries)).entriesBelow key
  | [] => rfl
  | (key', value) :: rest => by
    rw [flattenEntries, leavesOfEntries, flattenEntries_eq hkey rest]
    cases key'.text? with
    | none => rfl
    | some name =>
      have hbelow : Flat.below key name ≠ "" := fun h => hkey (Flat.below_eq_empty_iff.mp h).1
      simp only [Leaves.ofNames]
      rw [Leaves.entriesBelow_append, Leaves.entriesBelow_behind, flatten_eq hbelow value, Flat.below_of_ne hkey]

end

/-- At the root there is one entry for each leaf if no name is empty. -/
theorem flattenEntries_root (h : ∀ entry ∈ entries, entry.1.text? ≠ some "") :
    flattenEntries "" entries = (Leaves.ofNames (leavesOfEntries entries)).entries := by
  induction entries with
  | nil => rfl
  | cons entry rest ih =>
    obtain ⟨key, value⟩ := entry
    rw [List.forall_mem_cons] at h
    rw [flattenEntries, leavesOfEntries, ih h.2]
    cases hkey : key.text? with
    | none => rfl
    | some name =>
      have hname : name ≠ "" := by
        rintro rfl
        exact h.1 hkey
      simp only [Leaves.ofNames]
      rw [Leaves.entries_append, Leaves.entries_behind_name, Flat.below_empty, flatten_eq hname value]

/-- A tag changes nothing about the entries. -/
theorem flatten_untagged : (value : Value) → value.untagged.flatten key = value.flatten key
  | scalar _ | sequence _ | mapping _ => rfl
  | tagged _ value => by rw [untagged, flatten, flatten_untagged value]

/-- Nor about the leaves. -/
theorem leaves_untagged : (value : Value) → value.untagged.leaves = value.leaves
  | scalar _ | sequence _ | mapping _ => rfl
  | tagged _ value => by rw [untagged, leaves, leaves_untagged value]

/-! ### Leaves that are told apart -/

/-- The leaves of a sequence are those of its items. -/
theorem leavesOfItems_eq : leavesOfItems items = items.map leaves := by
  induction items with
  | nil => rfl
  | cons item rest ih => rw [leavesOfItems, List.map_cons, ih]

/-- The leaves of a mapping are those of the values whose keys are names. -/
theorem leavesOfEntries_eq :
    leavesOfEntries entries = entries.filterMap fun entry => entry.1.text?.map fun name => (name, leaves entry.2) := by
  induction entries with
  | nil => rfl
  | cons entry rest ih =>
    rw [leavesOfEntries, List.filterMap_cons, ih]
    cases entry.1.text? <;> rfl

/-- The leaves below a name are those of a value that the name has. -/
theorem mem_leavesOfEntries {named : String × Leaves} (h : named ∈ leavesOfEntries entries) :
    ∃ entry ∈ entries, entry.1.text? = some named.1 ∧ leaves entry.2 = named.2 := by
  rw [leavesOfEntries_eq] at h
  obtain ⟨entry, hentry, h⟩ := List.mem_filterMap.mp h
  obtain ⟨name, hname, rfl⟩ := Option.map_eq_some_iff.mp h
  exact ⟨entry, hentry, hname, rfl⟩

/-- The names with leaves are the keys that are names, in order. -/
theorem names_leavesOfEntries : (leavesOfEntries entries).map (·.1) = entries.filterMap (·.1.text?) := by
  rw [leavesOfEntries_eq, List.map_filterMap]
  simp only [Option.map_map, Function.comp_def, Option.map_id']

/-- The ways to the leaves of a value are plain if all keys in it are names. -/
theorem isPlain_leaves (h : value.Everywhere KeysAreNames) : value.leaves.IsPlain := by
  induction h with
  | scalar value => exact Leaves.isPlain_singleton _
  | sequence _ ih =>
    rw [leaves, leavesOfItems_eq]
    exact Leaves.isPlain_ofItems (List.forall_mem_map.mpr ih)
  | mapping hkeys _ ih =>
    refine Leaves.isPlain_ofNames ?_ ?_
    · intro named hnamed
      obtain ⟨entry, hentry, hname, -⟩ := mem_leavesOfEntries hnamed
      obtain ⟨name, hname', hplain⟩ := hkeys entry hentry
      exact Option.some.inj (hname'.symm.trans hname) ▸ hplain
    · intro named hnamed
      obtain ⟨entry, hentry, -, hleaves⟩ := mem_leavesOfEntries hnamed
      exact hleaves ▸ ih entry hentry
  | tagged _ _ ih => exact ih

/-- The leaves of a value have distinct ways if no two keys of one mapping are one name. -/
theorem isDistinct_leaves (h : value.Everywhere NamesAreDistinct) : value.leaves.IsDistinct := by
  induction h with
  | scalar value => exact Leaves.isDistinct_singleton _
  | sequence _ ih =>
    rw [leaves, leavesOfItems_eq]
    exact Leaves.isDistinct_ofItems (List.forall_mem_map.mpr ih)
  | mapping hnames _ ih =>
    refine Leaves.isDistinct_ofNames (names_leavesOfEntries ▸ hnames) ?_
    intro named hnamed
    obtain ⟨entry, hentry, -, hleaves⟩ := mem_leavesOfEntries hnamed
    exact hleaves ▸ ih entry hentry
  | tagged _ _ ih => exact ih

/-- What holds everywhere in a value holds of the mapping under its tags. -/
theorem Everywhere.of_untagged {p : List (Value × Value) → Prop} (h : value.Everywhere p) (hroot : value.untagged = .mapping entries) :
    p entries := by
  induction h with
  | scalar _ => nomatch hroot
  | sequence _ _ => nomatch hroot
  | mapping hentries _ _ =>
    cases hroot
    exact hentries
  | tagged _ _ ih => exact ih hroot

/-- A mapping, perhaps under tags, has one entry for each leaf if its keys are names. -/
theorem flatten_root (hnames : KeysAreNames entries) (hroot : value.untagged = .mapping entries) :
    value.flatten "" = value.leaves.entries := by
  rw [← flatten_untagged, ← leaves_untagged, hroot, flatten, leaves]
  refine flattenEntries_root fun entry hentry heq => ?_
  obtain ⟨name, hname, hplain⟩ := hnames entry hentry
  exact hplain.ne_empty (Option.some.inj (hname.symm.trans heq))

/-- The ways to the leaves of a mapping, perhaps under tags, begin with names. -/
theorem begins_leaves (hroot : value.untagged = .mapping entries) :
    ∀ leaf ∈ value.leaves, ∃ name way, leaf.1 = .name name :: way := by
  intro leaf hleaf
  rw [← leaves_untagged, hroot, leaves] at hleaf
  obtain ⟨name, way, -, hway⟩ := Leaves.begins_ofNames leaf hleaf
  exact ⟨name, way, hway⟩

end Leaves

end Yaml.Value

/-! ## TOML -/

namespace Toml.Value

mutual

/-- The leaves of a value, in order. -/
def leaves : Value → Leaves
  | string text => [([], text)]
  | integer value => [([], Text.signedDecimal value)]
  | float value => [([], layout.write value)]
  | flag value => [([], if value then "true" else "false")]
  | dateTime value => [([], value.text)]
  | array items => .ofItems 0 (leavesOfItems items)
  | table entries => .ofNames (leavesOfTable entries)

/-- The leaves of each item of an array. -/
def leavesOfItems : List Value → List Leaves
  | [] => []
  | value :: rest => leaves value :: leavesOfItems rest

/-- The leaves of each value of a table, by name. -/
def leavesOfTable : List (String × Value) → List (String × Leaves)
  | [] => []
  | (name, value) :: rest => (name, leaves value) :: leavesOfTable rest

end

/-- Whether a value is neither an array nor a table. -/
def isLeaf : Value → Bool
  | array _ | table _ => false
  | _ => true

/-- A property of named values holds of every table in a value. -/
inductive Everywhere (p : List (String × Value) → Prop) : Value → Prop
  | leaf {value : Value} (hleaf : value.isLeaf = true) : Everywhere p value
  | array {items : List Value} (hitems : ∀ item ∈ items, Everywhere p item) : Everywhere p (.array items)
  | table {entries : List (String × Value)} (hentries : p entries) (hvalues : ∀ entry ∈ entries, Everywhere p entry.2) :
      Everywhere p (.table entries)

/-- No name is given twice, and each can be told from what stands around it in a key. -/
structure HasNames (entries : List (String × Value)) : Prop where
  /-- Each name can be told. -/
  names : ∀ entry ∈ entries, IsName entry.1
  /-- None is given twice. -/
  distinct : (entries.map (·.1)).Nodup

section Leaves

variable {value : Value} {items : List Value} {entries : List (String × Value)}

mutual

/-- Below a key that is not empty there is one entry for each leaf. -/
theorem flatten_eq {key : String} (hkey : key ≠ "") : (value : Value) → value.flatten key = value.leaves.entriesBelow key
  | string _ | integer _ | float _ | flag _ | dateTime _ => by simp [flatten, leaves, Leaves.entriesBelow, Flat.Way.text]
  | array items => by rw [flatten, leaves, flattenItems_eq]
  | table entries => by rw [flatten, leaves, flattenTable_eq hkey]

/-- The entries of an array are those of its items, each at its position. -/
theorem flattenItems_eq {key : String} {index : Nat} :
    (items : List Value) → flattenItems key index items = (Leaves.ofItems index (leavesOfItems items)).entriesBelow key
  | [] => rfl
  | value :: rest => by
    rw [flattenItems, leavesOfItems, Leaves.ofItems, Leaves.entriesBelow_append, Leaves.entriesBelow_behind,
      flatten_eq Flat.item_ne_empty value, flattenItems_eq rest, Flat.item_eq]

/-- The entries of a table are those of its leaves, each below its name. -/
theorem flattenTable_eq {key : String} (hkey : key ≠ "") :
    (entries : List (String × Value)) → flattenTable key entries = (Leaves.ofNames (leavesOfTable entries)).entriesBelow key
  | [] => rfl
  | (name, value) :: rest => by
    have hbelow : Flat.below key name ≠ "" := fun h => hkey (Flat.below_eq_empty_iff.mp h).1
    rw [flattenTable, leavesOfTable, Leaves.ofNames, Leaves.entriesBelow_append, Leaves.entriesBelow_behind,
      flatten_eq hbelow value, flattenTable_eq hkey rest, Flat.below_of_ne hkey]

end

/-- At the root there is one entry for each leaf if no name is empty. -/
theorem flattenTable_root (h : ∀ entry ∈ entries, entry.1 ≠ "") :
    flattenTable "" entries = (Leaves.ofNames (leavesOfTable entries)).entries := by
  induction entries with
  | nil => rfl
  | cons entry rest ih =>
    obtain ⟨name, value⟩ := entry
    rw [List.forall_mem_cons] at h
    rw [flattenTable, leavesOfTable, Leaves.ofNames, ih h.2, Leaves.entries_append, Leaves.entries_behind_name, Flat.below_empty,
      flatten_eq h.1 value]

/-- The leaves of an array are those of its items. -/
theorem leavesOfItems_eq : leavesOfItems items = items.map leaves := by
  induction items with
  | nil => rfl
  | cons item rest ih => rw [leavesOfItems, List.map_cons, ih]

/-- The leaves of a table are those of its values, each below its name. -/
theorem leavesOfTable_eq : leavesOfTable entries = entries.map fun entry => (entry.1, leaves entry.2) := by
  induction entries with
  | nil => rfl
  | cons entry rest ih => rw [leavesOfTable, List.map_cons, ih]

/-- The ways to the leaves of a value are plain and distinct if the names in each table are. -/
theorem isPlain_isDistinct_leaves (h : value.Everywhere HasNames) : value.leaves.IsPlain ∧ value.leaves.IsDistinct := by
  induction h with
  | @leaf value hleaf =>
    cases value <;> first
      | exact ⟨Leaves.isPlain_singleton _, Leaves.isDistinct_singleton _⟩
      | cases hleaf
  | array _ ih =>
    rw [leaves, leavesOfItems_eq]
    exact ⟨Leaves.isPlain_ofItems (List.forall_mem_map.mpr fun item hi => (ih item hi).1),
      Leaves.isDistinct_ofItems (List.forall_mem_map.mpr fun item hi => (ih item hi).2)⟩
  | table hentries _ ih =>
    rw [leaves, leavesOfTable_eq]
    refine ⟨Leaves.isPlain_ofNames (List.forall_mem_map.mpr hentries.names) (List.forall_mem_map.mpr fun entry he => (ih entry he).1),
      Leaves.isDistinct_ofNames ?_ (List.forall_mem_map.mpr fun entry he => (ih entry he).2)⟩
    simpa [Function.comp_def] using hentries.distinct

/-- A table with names that can be told has entries that hold its leaves faithfully. -/
theorem faithful_flatten (h : (Value.table entries).Everywhere HasNames) :
    Leaves.Faithful (Value.table entries).leaves ((Value.table entries).flatten "") := by
  have hentries : (Value.table entries).flatten "" = (Value.table entries).leaves.entries := by
    rw [flatten, leaves]
    cases h with
    | leaf hleaf => cases hleaf
    | table hentries _ => exact flattenTable_root fun entry hentry => (hentries.names entry hentry).ne_empty
  obtain ⟨hplain, hdistinct⟩ := isPlain_isDistinct_leaves h
  rw [hentries, hplain.faithful_iff]
  · exact hdistinct
  · intro leaf hleaf
    rw [leaves] at hleaf
    obtain ⟨name, way, -, hway⟩ := Leaves.begins_ofNames leaf hleaf
    exact ⟨name, way, hway⟩

end Leaves

end Toml.Value

/-! ## Both formats -/

/-- Flattening keeps every leaf. In YAML, a mapping whose keys are names at every level, perhaps under tags, has one entry for each leaf,
under the key of the way to it; a layer of them answers that key with the text of the last leaf that has this way; and so the entries hold
the leaves faithfully exactly if no two leaves have one way, in particular if no two keys of one mapping are one name. In TOML, the entries
of every table hold the leaves faithfully whose names can be told from what stands around them in a key. -/
theorem leaves_of_flatten :
    (∀ (value : Yaml.Value) (entries : List (Yaml.Value × Yaml.Value)), value.untagged = .mapping entries →
        value.Everywhere Yaml.Value.KeysAreNames →
        value.flatten "" = value.leaves.entries ∧
          (∀ layer, ∀ leaf ∈ value.leaves,
            (Layer.ofEntries layer (value.flatten "")).get? leaf.1.key = value.leaves.last? leaf.1) ∧
          (value.leaves.Faithful (value.flatten "") ↔ value.leaves.IsDistinct) ∧
          (value.Everywhere Yaml.Value.NamesAreDistinct → value.leaves.IsDistinct)) ∧
      ∀ entries : List (String × Toml.Value), (Toml.Value.table entries).Everywhere Toml.Value.HasNames →
        (Toml.Value.table entries).leaves.Faithful ((Toml.Value.table entries).flatten "") := by
  refine ⟨fun value entries hroot hnames => ?_, fun _ hnames => Toml.Value.faithful_flatten hnames⟩
  have hentries := Yaml.Value.flatten_root (hnames.of_untagged hroot) hroot
  have hplain := Yaml.Value.isPlain_leaves hnames
  have hbegins := Yaml.Value.begins_leaves hroot
  rw [hentries]
  exact ⟨rfl, fun layer leaf hleaf => hplain.get?_ofEntries hbegins layer hleaf, hplain.faithful_iff hbegins,
    Yaml.Value.isDistinct_leaves⟩

/-- A mapping with tags around itself, a name and a value. -/
def mappingUnderTags : Yaml.Value :=
  .tagged "s" (.mapping
    [(.tagged "t" (.scalar (.string "a")),
        .sequence [.scalar .null, .mapping [(.scalar (.string "b]"), .tagged "u" (.scalar (.integer 2)))]]),
      (.scalar (.string "c"), .scalar (.flag true))])

/-- The values by name of a table with an array that holds a table. -/
def nestedTable : List (String × Toml.Value) :=
  [("a", .array [.string "x", .table [("b", .integer 1)]]), ("c", .flag true)]

/-- A mapping under tags and a table that is nested, with a key that looks like a position. -/
theorem leaves_of_flatten_nested :
    (mappingUnderTags.Everywhere Yaml.Value.KeysAreNames ∧ mappingUnderTags.Everywhere Yaml.Value.NamesAreDistinct ∧
        mappingUnderTags.leaves.Faithful (mappingUnderTags.flatten "") ∧
        mappingUnderTags.flatten "" = [("a[0]", ""), ("a[1].b]", "2"), ("c", "true")]) ∧
      (Toml.Value.table nestedTable).Everywhere Toml.Value.HasNames ∧
      (Toml.Value.table nestedTable).leaves.Faithful ((Toml.Value.table nestedTable).flatten "") ∧
      (Toml.Value.table nestedTable).flatten "" = [("a[0]", "x"), ("a[1].b", "1"), ("c", "true")] := by
  have heverywhere : ∀ p, p [(.scalar (.string "b]"), .tagged "u" (.scalar (.integer 2)))] →
      (∀ entries, mappingUnderTags.untagged = .mapping entries → p entries) → mappingUnderTags.Everywhere p := by
    intro p hinner houter
    refine .tagged "s" (.mapping (houter _ rfl) ?_)
    simpa using ⟨.sequence (by simpa using ⟨.scalar _, .mapping hinner (by simpa using .tagged "u" (.scalar _))⟩), .scalar _⟩
  have hnames : mappingUnderTags.Everywhere Yaml.Value.KeysAreNames := by
    refine heverywhere _ (by simpa [Yaml.Value.KeysAreNames] using ⟨"b]", rfl, by decide⟩) ?_
    rintro entries ⟨⟩
    simpa [Yaml.Value.KeysAreNames] using ⟨⟨"a", rfl, by decide⟩, "c", rfl, by decide⟩
  have hdistinct : mappingUnderTags.Everywhere Yaml.Value.NamesAreDistinct := by
    refine heverywhere _ (by unfold Yaml.Value.NamesAreDistinct; decide) ?_
    rintro entries ⟨⟩
    unfold Yaml.Value.NamesAreDistinct
    decide
  have htable : (Toml.Value.table nestedTable).Everywhere Toml.Value.HasNames := by
    have hinner : (Toml.Value.table [("b", .integer 1)]).Everywhere Toml.Value.HasNames :=
      .table ⟨by decide, by decide⟩ (by simpa using .leaf rfl)
    refine .table ⟨by decide, by decide⟩ ?_
    simpa [nestedTable] using ⟨.array (by simpa using ⟨.leaf rfl, hinner⟩), .leaf rfl⟩
  obtain ⟨-, -, hfaithful, hways⟩ := leaves_of_flatten.1 mappingUnderTags _ rfl hnames
  exact ⟨⟨hnames, hdistinct, hfaithful.mpr (hways hdistinct), by decide +kernel⟩, htable, leaves_of_flatten.2 _ htable,
    by decide +kernel⟩

/-- Two keys of one mapping that are one name, one of them under a tag. -/
def oneNameTwice : Yaml.Value :=
  .mapping [(.tagged "t" (.scalar (.string "a")), .scalar (.integer 1)), (.scalar (.string "a"), .scalar (.integer 2))]

/-- The two keys are not the same value, so the mapping may hold both; but the two leaves have one key, and a layer of them has the text of
the second one alone. -/
theorem leaf_lost_oneNameTwice :
    IsName "a" ∧ (Yaml.Value.tagged "t" (.scalar (.string "a"))).same (.scalar (.string "a")) = false ∧
      oneNameTwice.leaves = [([.name "a"], "1"), ([.name "a"], "2")] ∧ ¬(oneNameTwice.flatten "").keys.Nodup ∧
      (Layer.ofEntries "layer" (oneNameTwice.flatten "")).entries = [("a", "2")] ∧
      Yaml.parse "!t a: 1\na: 2" = .ok [oneNameTwice.flatten ""] := by
  decide +kernel

end Ignition
