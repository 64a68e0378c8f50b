import Ignition.Proofs.Config.Entries

/-!
# Laying layers over each other

A layer of explicit entries holds each key once, in order of first occurrence, with its last value. Laid over another one, such a layer
decides the keys that it has and leaves the others as they are (`get?_overlaidBy`). It makes no difference in which order several layers
are laid together, as long as the same ones are above (`overlaidBy_assoc`), and a layer changes nothing when it is laid over itself
(`overlaidBy_self`).
-/

namespace Ignition

namespace Layer

/-- A layer holds explicit entries. As such a layer is built, a repeated key keeps its first place and its last value. -/
def IsExplicit (layer : Layer) : Prop :=
  ∃ pairs : Entries, layer.source = .entries pairs.collapse

variable {layer other : Layer} {key : String}

/-! ## Explicit entries -/

/-- A layer that is built from entries holds explicit ones. -/
theorem isExplicit_ofEntries (name : String) (pairs : Entries) : (ofEntries name pairs).IsExplicit :=
  ⟨pairs, rfl⟩

/-- So does a layer with another one laid over it. -/
theorem isExplicit_overlaidBy (layer other : Layer) : (layer.overlaidBy other).IsExplicit :=
  ⟨layer.entries ++ other.entries, rfl⟩

/-- Of entries for one key the last one counts, in the place of the first. -/
@[simp] theorem entries_ofEntries (name : String) (pairs : Entries) : (ofEntries name pairs).entries = pairs.collapse :=
  rfl

/-- Of the entries of both, with those of the upper layer behind, the last one for a key counts. -/
@[simp] theorem entries_overlaidBy (layer other : Layer) :
    (layer.overlaidBy other).entries = (layer.entries ++ other.entries).collapse :=
  rfl

/-- Such a layer has no key twice. -/
theorem IsExplicit.nodup_keys (h : layer.IsExplicit) : layer.entries.keys.Nodup := by
  obtain ⟨pairs, hsource⟩ := h
  rw [entries, hsource]
  exact Entries.nodup_keys_collapse pairs

/-- Collapsing explicit entries changes nothing. -/
theorem IsExplicit.source_collapse (h : layer.IsExplicit) : layer.source = .entries layer.entries.collapse := by
  rw [Entries.collapse_eq_self h.nodup_keys]
  obtain ⟨pairs, hsource⟩ := h
  rw [entries, hsource]

/-- The value of a key in a layer of explicit entries, where the first one is also the last. -/
theorem IsExplicit.get?_eq (h : layer.IsExplicit) (key : String) : layer.get? key = layer.entries.last? key := by
  have hget : layer.get? key = layer.entries.collapse.get? key := by rw [get?, h.source_collapse]
  rw [hget, Entries.get?_collapse, Entries.last?]

/-- A layer of entries answers with the last value of a key. -/
theorem get?_ofEntries (name : String) (pairs : Entries) (key : String) : (ofEntries name pairs).get? key = pairs.last? key := by
  rw [(isExplicit_ofEntries name pairs).get?_eq, entries_ofEntries, Entries.last?_collapse]

/-! ## One layer over another -/

/-- A key of both layers has the value of the upper one. -/
theorem get?_overlaidBy (h : layer.IsExplicit) (hother : other.IsExplicit) :
    (layer.overlaidBy other).get? key = (other.get? key).or (layer.get? key) := by
  rw [(isExplicit_overlaidBy layer other).get?_eq, entries_overlaidBy, Entries.last?_collapse, Entries.last?_append, h.get?_eq,
    hother.get?_eq]

/-- It makes no difference which of three layers are laid together first. -/
theorem overlaidBy_assoc (lower middle upper : Layer) :
    (lower.overlaidBy middle).overlaidBy upper = lower.overlaidBy (middle.overlaidBy upper) := by
  have hentries : ((lower.overlaidBy middle).entries ++ upper.entries).collapse =
      (lower.entries ++ (middle.overlaidBy upper).entries).collapse := by
    rw [entries_overlaidBy, entries_overlaidBy, Entries.collapse_collapse_append, Entries.collapse_append_collapse,
      List.append_assoc]
  exact congrArg (fun entries => { lower with source := .entries entries }) hentries

/-- A layer laid over itself is the same layer. -/
theorem overlaidBy_self (h : layer.IsExplicit) : layer.overlaidBy layer = layer := by
  rw [overlaidBy, Entries.collapse_append_self, ← h.source_collapse]

/-- A layer without entries changes nothing. -/
theorem overlaidBy_of_entries_eq_nil (h : layer.IsExplicit) (hother : other.entries = []) : layer.overlaidBy other = layer := by
  rw [overlaidBy, hother, List.append_nil, ← h.source_collapse]

/-- Layers of explicit entries form an algebra:
1. a layer holds each key that it is given once, in order of first occurrence, with the last value given for it;
2. a layer that is laid over another decides the keys that it has, and the other one decides the rest;
3. laying layers over each other is associative, with the same name, origin, profile and entries, in the same order;
4. a layer that is laid over itself stays as it is. -/
theorem algebra_of_layers :
    (∀ (name : String) (pairs : Entries),
      (ofEntries name pairs).entries.keys = pairs.keys.eraseDups ∧ ∀ key, (ofEntries name pairs).get? key = pairs.last? key) ∧
      ∀ a b c : Layer, a.IsExplicit → b.IsExplicit → c.IsExplicit →
        (∀ key, (a.overlaidBy b).get? key = (b.get? key).or (a.get? key)) ∧
          (a.overlaidBy b).overlaidBy c = a.overlaidBy (b.overlaidBy c) ∧ a.overlaidBy a = a := by
  refine ⟨?_, ?_⟩
  · intro name pairs
    exact ⟨Entries.keys_collapse pairs, get?_ofEntries name pairs⟩
  · intro a b c ha hb _
    exact ⟨fun key => get?_overlaidBy ha hb, overlaidBy_assoc a b c, overlaidBy_self ha⟩

/-- Three layers of different origin, each with a key in common with each other one. -/
theorem algebra_of_layers_three :
    let low : Layer := { ofEntries "low" [("a", "1"), ("b", "2"), ("a", "3")] with origin := some "file:./low.properties" }
    let middle : Layer := { ofEntries "middle" [("c", "4"), ("b", "5")] with profile := some "dev" }
    let high : Layer := ofEntries "high" [("a", "6"), ("c", "7")]
    low.IsExplicit ∧ middle.IsExplicit ∧ high.IsExplicit ∧ (low.overlaidBy middle).get? "b" = some "5" ∧
      (low.overlaidBy middle).overlaidBy high = low.overlaidBy (middle.overlaidBy high) ∧ low.overlaidBy low = low := by
  intro low middle high
  have hlow : low.IsExplicit := ⟨_, rfl⟩
  have hmiddle : middle.IsExplicit := ⟨_, rfl⟩
  have hhigh : high.IsExplicit := ⟨_, rfl⟩
  obtain ⟨hget, hassoc, hself⟩ := algebra_of_layers.2 low middle high hlow hmiddle hhigh
  refine ⟨hlow, hmiddle, hhigh, ?_, hassoc, hself⟩
  rw [hget]
  decide +kernel

end Layer

end Ignition
