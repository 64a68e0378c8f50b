import Ignition.Config.Layer
import Ignition.Format.Flat
import Ignition.Proofs.Config.Entries
import Mathlib.Data.List.Basic
import Mathlib.Data.List.Nodup

/-!
# Ways to the leaves of a tree

A way leads to a leaf by names and by indices. Its key has a dot in front of each name but the first, and brackets around each index; and
where no name is empty or has a dot or an opening bracket, the key says which way it is (`Way.eq_of_text`). So leaves that are found
by distinct ways have distinct keys, and a layer of them answers each key with the text of its leaf (`Leaves.IsPlain.faithful_iff`).
-/

namespace Ignition

namespace Text

/-- Two texts with the same continuation of a beginning: the beginning goes as far as a property does, which the continuations break
off. -/
theorem append_inj_of_breakOff {p : Char → Bool} {front front' back back' : List Char} (hfront : ∀ c ∈ front, p c = true)
    (hfront' : ∀ c ∈ front', p c = true) (hback : ∀ c ∈ back.head?, p c = false) (hback' : ∀ c ∈ back'.head?, p c = false)
    (h : front ++ back = front' ++ back') : front = front' ∧ back = back' := by
  have htake : ∀ {front back : List Char}, (∀ c ∈ front, p c = true) → (∀ c ∈ back.head?, p c = false) →
      (front ++ back).takeWhile p = front := by
    intro front back hfront hback
    rw [List.takeWhile_append_of_pos hfront]
    cases back with
    | nil => simp
    | cons c back => rw [List.takeWhile_cons_of_neg (by simpa using hback c rfl), List.append_nil]
  have heq : front = front' := by rw [← htake hfront hback, h, htake hfront' hback']
  subst heq
  exact ⟨rfl, List.append_cancel_left h⟩

/-- The characters of a decimal number are its digits. -/
theorem toList_decimal (n : Nat) : (decimal n).toList = Nat.toDigits 10 n :=
  String.toList_ofList

/-- Numbers with the same digits are the same. -/
theorem decimal_injective {m n : Nat} (h : Nat.toDigits 10 m = Nat.toDigits 10 n) : m = n := by
  have hvalue := congrArg (Nat.ofDigitChars 10 · 0) h
  simpa [Nat.ofDigitChars_ten_toDigits] using hvalue

/-- No digit is a bracket. -/
theorem ne_bracket_of_mem_digits {n : Nat} {c : Char} (h : c ∈ Nat.toDigits 10 n) : c ≠ ']' := by
  rintro rfl
  have hdigit := Nat.isDigit_of_mem_toDigits (by decide) (by decide) h
  exact absurd hdigit (by decide)

end Text

namespace Flat

/-! ## Ways and their keys -/

/-- A step to a value inside another. -/
inductive Step where
  /-- To the value of a name. -/
  | name (text : String)
  /-- To an item of a sequence. -/
  | index (position : Nat)
deriving DecidableEq, Repr

/-- Steps one after the other. -/
abbrev Way := List Step

/-- What a step adds to a key. -/
def Step.text : Step → String
  | .name text => "." ++ text
  | .index position => "[" ++ Text.decimal position ++ "]"

/-- What some steps add to a key. -/
def Way.text : Way → String
  | [] => ""
  | step :: rest => step.text ++ Way.text rest

/-- The key of a way: names joined with dots, and indices in brackets. -/
def Way.key : Way → String
  | .name first :: rest => first ++ Way.text rest
  | way => Way.text way

/-- A name that can be told from what stands around it in a key. -/
structure IsName (name : String) : Prop where
  /-- It is not empty. -/
  ne_empty : name ≠ ""
  /-- It has no dot. -/
  dot : '.' ∉ name.toList
  /-- It has no opening bracket. -/
  bracket : '[' ∉ name.toList

instance (name : String) : Decidable (IsName name) :=
  decidable_of_iff (name ≠ "" ∧ '.' ∉ name.toList ∧ '[' ∉ name.toList)
    ⟨fun ⟨hempty, hdot, hbracket⟩ => ⟨hempty, hdot, hbracket⟩, fun h => ⟨h.ne_empty, h.dot, h.bracket⟩⟩

/-- A step by an index, or by a name that can be told. -/
def Step.IsPlain : Step → Prop
  | .name text => IsName text
  | .index _ => True

section Ways

variable {key name : String} {position : Nat} {step step' : Step} {way other : Way}

/-- Below a key that is not empty, a name follows a dot. -/
theorem below_of_ne (h : key ≠ "") : below key name = key ++ (Step.name name).text := by
  simp [below, h, Step.text, String.append_assoc]

/-- Below the empty key a name stands alone. -/
theorem below_empty : below "" name = name := by
  simp [below]

/-- An item of a list is its position in brackets behind the key. -/
theorem item_eq : item key position = key ++ (Step.index position).text := by
  simp [item, Step.text, String.append_assoc]

/-- What a way adds begins with a dot or an opening bracket, if it adds anything. -/
theorem head?_text : ∀ c ∈ (Way.text way).toList.head?, c = '.' ∨ c = '[' := by
  cases way with
  | nil => simp [Way.text]
  | cons step rest => cases step <;> simp [Way.text, Step.text]

/-- A name on a way is a dot and the name, and then the rest of the way. -/
theorem toList_text_cons_name : (Way.text (.name name :: way)).toList = '.' :: (name.toList ++ (Way.text way).toList) := by
  simp [Way.text, Step.text]

/-- A position on a way stands in brackets, ahead of the rest of the way. -/
theorem toList_text_cons_index :
    (Way.text (.index position :: way)).toList = '[' :: (Nat.toDigits 10 position ++ ']' :: (Way.text way).toList) := by
  simp [Way.text, Step.text, Text.toList_decimal]

/-- A plain step and what the steps behind it add are determined by what they add together. -/
theorem step_eq_of_text (hplain : step.IsPlain) (hplain' : step'.IsPlain)
    (h : Way.text (step :: way) = Way.text (step' :: other)) : step = step' ∧ Way.text way = Way.text other := by
  have hlist := congrArg String.toList h
  cases step with
  | name text =>
    cases step' with
    | name text' =>
      rw [toList_text_cons_name, toList_text_cons_name, List.cons.injEq] at hlist
      have hname : ∀ {text : String}, IsName text → ∀ c ∈ text.toList, (c != '.' && c != '[') = true := by
        intro text hn c hc
        have hdot : c ≠ '.' := fun heq => hn.dot (heq ▸ hc)
        have hbracket : c ≠ '[' := fun heq => hn.bracket (heq ▸ hc)
        simp [hdot, hbracket]
      have hrest : ∀ {way : Way}, ∀ c ∈ (Way.text way).toList.head?, (c != '.' && c != '[') = false := by
        intro way c hc
        rcases head?_text c hc with rfl | rfl <;> rfl
      obtain ⟨htext, hway⟩ := Text.append_inj_of_breakOff (hname hplain) (hname hplain') hrest hrest hlist.2
      rw [String.toList_inj] at htext hway
      exact ⟨by rw [htext], hway⟩
    | index position =>
      rw [toList_text_cons_name, toList_text_cons_index] at hlist
      simp at hlist
  | index position =>
    cases step' with
    | name text =>
      rw [toList_text_cons_name, toList_text_cons_index] at hlist
      simp at hlist
    | index position' =>
      rw [toList_text_cons_index, toList_text_cons_index, List.cons.injEq] at hlist
      have hdigits : ∀ {n : Nat}, ∀ c ∈ Nat.toDigits 10 n, (c != ']') = true := by
        intro n c hc
        simpa using Text.ne_bracket_of_mem_digits hc
      obtain ⟨hposition, hway⟩ := Text.append_inj_of_breakOff hdigits hdigits (by simp) (by simp) hlist.2
      rw [List.cons.injEq, String.toList_inj] at hway
      exact ⟨by rw [Text.decimal_injective hposition], hway.2⟩

/-- Ways by plain steps are told apart by what they add to a key. -/
theorem Way.eq_of_text (hway : ∀ step ∈ way, step.IsPlain) (hother : ∀ step ∈ other, step.IsPlain)
    (h : Way.text way = Way.text other) : way = other := by
  induction way generalizing other with
  | nil =>
    cases other with
    | nil => rfl
    | cons step rest =>
      have hlist := congrArg String.toList h
      cases step <;> simp [Way.text, Step.text] at hlist
  | cons step rest ih =>
    cases other with
    | nil =>
      have hlist := congrArg String.toList h
      cases step <;> simp [Way.text, Step.text] at hlist
    | cons step' rest' =>
      rw [List.forall_mem_cons] at hway hother
      obtain ⟨rfl, hrest⟩ := step_eq_of_text hway.1 hother.1 h
      rw [ih hway.2 hother.2 hrest]

/-- Ways by plain steps that begin with a name have distinct keys. -/
theorem Way.eq_of_key {first first' : String} (hway : ∀ step ∈ Step.name first :: way, step.IsPlain)
    (hother : ∀ step ∈ Step.name first' :: other, step.IsPlain)
    (h : Way.key (.name first :: way) = Way.key (.name first' :: other)) :
    Step.name first :: way = Step.name first' :: other := by
  refine Way.eq_of_text hway hother ?_
  rw [Way.key, Way.key] at h
  rw [Way.text, Way.text, Step.text, Step.text, String.append_assoc, String.append_assoc, h]

end Ways

/-! ## Leaves -/

/-- Leaves with the ways to them: the way to each leaf and its text. -/
abbrev Leaves := List (Way × String)

namespace Leaves

/-- Leaves one step further away. -/
def behind (step : Step) (leaves : Leaves) : Leaves :=
  leaves.map fun (way, text) => (step :: way, text)

/-- The leaves of the items of a sequence, from an index on. -/
def ofItems (index : Nat) : List Leaves → Leaves
  | [] => []
  | leaves :: rest => behind (.index index) leaves ++ ofItems (index + 1) rest

/-- The leaves of values by name. -/
def ofNames : List (String × Leaves) → Leaves
  | [] => []
  | (name, leaves) :: rest => behind (.name name) leaves ++ ofNames rest

/-- The entries of leaves: one for each of them, under the key of its way. -/
def entries (leaves : Leaves) : Entries :=
  leaves.map fun (way, text) => (way.key, text)

/-- The entries of leaves below a key. -/
def entriesBelow (key : String) (leaves : Leaves) : Entries :=
  leaves.map fun (way, text) => (key ++ Way.text way, text)

variable {key name : String} {index : Nat} {step : Step} {leaves rest : Leaves} {items : List Leaves}
  {named : List (String × Leaves)}

/-- Leaves behind a step have their entries below the key with this step. -/
theorem entriesBelow_behind : entriesBelow key (behind step leaves) = entriesBelow (key ++ step.text) leaves := by
  simp [entriesBelow, behind, Way.text, String.append_assoc]

/-- The entries of some leaves and of others behind them, below a key. -/
theorem entriesBelow_append : entriesBelow key (leaves ++ rest) = entriesBelow key leaves ++ entriesBelow key rest := by
  simp [entriesBelow]

/-- At the root the key of a way begins with the name itself. -/
theorem entries_behind_name : entries (behind (.name name) leaves) = entriesBelow name leaves := by
  simp [entries, entriesBelow, behind, Way.key]

/-- The entries of some leaves and of others behind them. -/
theorem entries_append : entries (leaves ++ rest) = entries leaves ++ entries rest := by
  simp [entries]

/-- A leaf behind a step is one of the leaves with this step ahead of its way. -/
theorem mem_behind {leaf : Way × String} (h : leaf ∈ behind step leaves) : ∃ inner ∈ leaves, leaf = (step :: inner.1, inner.2) := by
  obtain ⟨inner, hmem, rfl⟩ := List.mem_map.mp h
  exact ⟨inner, hmem, rfl⟩

/-- The way to a leaf of an item begins with its index. -/
theorem begins_ofItems : ∀ leaf ∈ ofItems index items, ∃ position way, index ≤ position ∧ leaf.1 = .index position :: way := by
  induction items generalizing index with
  | nil => intro leaf hl; cases hl
  | cons leaves items ih =>
    intro leaf hl
    rcases List.mem_append.mp hl with hl | hl
    · obtain ⟨inner, -, rfl⟩ := mem_behind hl
      exact ⟨index, inner.1, Nat.le_refl _, rfl⟩
    · obtain ⟨position, way, hle, hway⟩ := ih leaf hl
      exact ⟨position, way, by omega, hway⟩

/-- The way to a leaf of a value by name begins with the name. -/
theorem begins_ofNames : ∀ leaf ∈ ofNames named, ∃ name way, name ∈ named.map (·.1) ∧ leaf.1 = .name name :: way := by
  induction named with
  | nil => intro leaf hl; cases hl
  | cons entry named ih =>
    obtain ⟨name, leaves⟩ := entry
    intro leaf hl
    rcases List.mem_append.mp hl with hl | hl
    · obtain ⟨inner, -, rfl⟩ := mem_behind hl
      exact ⟨name, inner.1, List.mem_cons_self, rfl⟩
    · obtain ⟨other, way, hmem, hway⟩ := ih leaf hl
      exact ⟨other, way, List.mem_cons_of_mem _ hmem, hway⟩

end Leaves

/-! ## Leaves by plain and by distinct ways -/

namespace Leaves

/-- All ways are by plain steps. -/
def IsPlain (leaves : Leaves) : Prop :=
  ∀ leaf ∈ leaves, ∀ step ∈ leaf.1, step.IsPlain

/-- No two leaves have one way. -/
def IsDistinct (leaves : Leaves) : Prop :=
  (leaves.map (·.1)).Nodup

section Ways

variable {index : Nat} {step : Step} {leaves rest : Leaves} {items : List Leaves} {named : List (String × Leaves)}

/-- A text by itself is a plain leaf. -/
theorem isPlain_singleton (text : String) : IsPlain [([], text)] := by
  intro leaf hl step hs
  rw [List.mem_singleton.mp hl] at hs
  cases hs

/-- Plain leaves behind a plain step are plain, with others that are. -/
theorem IsPlain.append (hstep : step.IsPlain) (h : leaves.IsPlain) (hrest : rest.IsPlain) :
    IsPlain (behind step leaves ++ rest) := by
  intro leaf hl
  rcases List.mem_append.mp hl with hl | hl
  · obtain ⟨inner, hinner, rfl⟩ := mem_behind hl
    exact List.forall_mem_cons.mpr ⟨hstep, h inner hinner⟩
  · exact hrest leaf hl

/-- The ways to the leaves of items are plain if they are so from each item on. -/
theorem isPlain_ofItems (h : ∀ leaves ∈ items, IsPlain leaves) : IsPlain (ofItems index items) := by
  induction items generalizing index with
  | nil => exact nofun
  | cons leaves items ih =>
    rw [List.forall_mem_cons] at h
    exact .append trivial h.1 (ih h.2)

/-- The ways to the leaves of values by name are plain if the names are, and the ways from each value on. -/
theorem isPlain_ofNames (hnames : ∀ entry ∈ named, IsName entry.1) (h : ∀ entry ∈ named, IsPlain entry.2) :
    IsPlain (ofNames named) := by
  induction named with
  | nil => exact nofun
  | cons entry named ih =>
    rw [List.forall_mem_cons] at hnames h
    exact .append hnames.1 h.1 (ih hnames.2 h.2)

/-- A text by itself is one leaf. -/
theorem isDistinct_singleton (text : String) : IsDistinct [([], text)] :=
  List.nodup_singleton _

/-- Leaves behind a step have other ways than those that are not behind it. -/
theorem IsDistinct.append (h : leaves.IsDistinct) (hrest : rest.IsDistinct) (hother : ∀ leaf ∈ rest, leaf.1.head? ≠ some step) :
    IsDistinct (behind step leaves ++ rest) := by
  have hways : (behind step leaves).map (·.1) = (leaves.map (·.1)).map (step :: ·) := by
    simp [behind]
  rw [IsDistinct, List.map_append, List.nodup_append, hways]
  refine ⟨List.Nodup.map List.cons_injective h, hrest, ?_⟩
  rintro way hway other ho rfl
  obtain ⟨inner, -, rfl⟩ := List.mem_map.mp hway
  obtain ⟨leaf, hleaf, heq⟩ := List.mem_map.mp ho
  exact hother leaf hleaf (by rw [heq]; rfl)

/-- The leaves of items have distinct ways if those of each item have. -/
theorem isDistinct_ofItems (h : ∀ leaves ∈ items, IsDistinct leaves) : IsDistinct (ofItems index items) := by
  induction items generalizing index with
  | nil => exact List.nodup_nil
  | cons leaves items ih =>
    rw [List.forall_mem_cons] at h
    refine .append h.1 (ih h.2) ?_
    intro leaf hl heq
    obtain ⟨position, way, hle, hway⟩ := begins_ofItems leaf hl
    rw [hway] at heq
    simp at heq
    omega

/-- The leaves of values by name have distinct ways if those of each value have, and the names are distinct. -/
theorem isDistinct_ofNames (hnames : (named.map (·.1)).Nodup) (h : ∀ entry ∈ named, IsDistinct entry.2) :
    IsDistinct (ofNames named) := by
  induction named with
  | nil => exact List.nodup_nil
  | cons entry named ih =>
    rw [List.map_cons, List.nodup_cons] at hnames
    rw [List.forall_mem_cons] at h
    refine .append h.1 (ih hnames.2 h.2) ?_
    intro leaf hl heq
    obtain ⟨name, way, hname, hway⟩ := begins_ofNames leaf hl
    rw [hway] at heq
    obtain rfl : name = entry.1 := by simpa using heq
    exact hnames.1 hname

end Ways

/-! ## Layers of leaves -/

/-- The text of the last leaf by a way. -/
def last? (leaves : Leaves) (way : Way) : Option String :=
  (leaves.reverse.find? (·.1 = way)).map (·.2)

/-- Entries hold leaves faithfully: there is one entry for each leaf, in order, under the key of its way; no two have one key; and a layer
of them keeps them as they are and answers the key of each leaf with its text. -/
structure Faithful (leaves : Leaves) (entries : Entries) : Prop where
  /-- There is one entry for each leaf. -/
  one_each : entries = leaves.entries
  /-- No two entries have one key. -/
  distinct : entries.keys.Nodup
  /-- A layer keeps the entries. -/
  kept : ∀ name, (Layer.ofEntries name entries).entries = entries
  /-- It answers the key of each leaf with its text. -/
  answered : ∀ name, ∀ leaf ∈ leaves, (Layer.ofEntries name entries).get? leaf.1.key = some leaf.2

section Layers

variable {leaves : Leaves}

/-- The keys of the entries are those of the ways of the leaves. -/
theorem keys_entries : leaves.entries.keys = (leaves.map (·.1)).map Way.key := by
  simp [entries, Entries.keys]

/-- Plain ways behind names are told apart by their keys. -/
theorem IsPlain.eq_of_key (h : leaves.IsPlain) (hnames : ∀ leaf ∈ leaves, ∃ name way, leaf.1 = .name name :: way)
    {leaf other : Way × String} (hleaf : leaf ∈ leaves) (hother : other ∈ leaves) (heq : leaf.1.key = other.1.key) :
    leaf.1 = other.1 := by
  obtain ⟨name, way, hway⟩ := hnames leaf hleaf
  obtain ⟨name', way', hway'⟩ := hnames other hother
  have hplain := h leaf hleaf
  have hplain' := h other hother
  rw [hway] at hplain heq ⊢
  rw [hway'] at hplain' heq ⊢
  exact Way.eq_of_key hplain hplain' heq

/-- A layer answers the key of a leaf with the text of the last leaf that has its way. -/
theorem IsPlain.get?_ofEntries (h : leaves.IsPlain) (hnames : ∀ leaf ∈ leaves, ∃ name way, leaf.1 = .name name :: way)
    (layer : String) {leaf : Way × String} (hleaf : leaf ∈ leaves) :
    (Layer.ofEntries layer leaves.entries).get? leaf.1.key = leaves.last? leaf.1 := by
  have hsame : ∀ other ∈ leaves.reverse, decide (other.1.key = leaf.1.key) = decide (other.1 = leaf.1) := by
    intro other hother
    rw [decide_eq_decide]
    exact ⟨h.eq_of_key hnames (List.mem_reverse.mp hother) hleaf, fun heq => by rw [heq]⟩
  have hget : (Layer.ofEntries layer leaves.entries).get? leaf.1.key = Entries.get? leaves.entries.reverse leaf.1.key :=
    Entries.get?_collapse _ _
  have hfind : leaves.reverse.find? (·.1.key = leaf.1.key) = leaves.reverse.find? (·.1 = leaf.1) := by
    rw [← List.head?_filter, ← List.head?_filter, List.filter_congr hsame]
  rw [hget, Entries.get?, entries, ← List.map_reverse, List.find?_map, Option.map_map, last?, ← hfind]
  rfl

/-- The entries of plain ways behind names hold the leaves faithfully exactly if the ways are distinct. -/
theorem IsPlain.faithful_iff (h : leaves.IsPlain) (hnames : ∀ leaf ∈ leaves, ∃ name way, leaf.1 = .name name :: way) :
    Faithful leaves leaves.entries ↔ leaves.IsDistinct := by
  constructor
  · intro hfaithful
    have hkeys := hfaithful.distinct
    rw [keys_entries] at hkeys
    exact hkeys.of_map
  · intro hdistinct
    have hkeys : leaves.entries.keys.Nodup := by
      rw [keys_entries]
      refine List.Nodup.map_on ?_ hdistinct
      intro way hway other hother heq
      obtain ⟨leaf, hleaf, rfl⟩ := List.mem_map.mp hway
      obtain ⟨leaf', hleaf', rfl⟩ := List.mem_map.mp hother
      exact h.eq_of_key hnames hleaf hleaf' heq
    have hcollapse := Entries.collapse_eq_self hkeys
    refine ⟨rfl, hkeys, fun _ => hcollapse, ?_⟩
    intro layer leaf hleaf
    have hget : (Layer.ofEntries layer leaves.entries).get? leaf.1.key = leaves.entries.get? leaf.1.key := by
      simp only [Layer.ofEntries, Layer.get?, hcollapse]
    rw [hget, Entries.get?_eq_some_iff hkeys]
    exact List.mem_map.mpr ⟨leaf, hleaf, rfl⟩

end Layers

end Leaves

end Flat

end Ignition
