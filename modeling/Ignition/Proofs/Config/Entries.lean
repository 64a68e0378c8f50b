import Ignition.Config.Entries
import Ignition.Proofs.Config.Profiles

/-!
# Keys and values of entries

Entries without a repeated key are what they stand for (`collapse_eq_self`). Of others the keys are left once each, in order of first
occurrence (`keys_collapse`), with the last value of each (`get?_collapse`). As this is all that is left (`collapse_congr`), it makes no
difference whether a part of some entries is collapsed beforehand (`collapse_collapse_append`, `collapse_append_collapse`).
-/

namespace Ignition

namespace Entries

variable {entries more : Entries} {key other value : String}

/-- Of two lists of entries the first one answers first. -/
theorem get?_append : get? (entries ++ more) key = (entries.get? key).or (more.get? key) := by
  rw [get?, List.find?_append, Option.map_or]
  rfl

/-- Entries answer exactly the keys that they have. -/
theorem get?_eq_none_iff : entries.get? key = none ↔ key ∉ entries.keys := by
  simp only [get?, Option.map_eq_none_iff, List.find?_eq_none, keys, List.mem_map, decide_eq_true_eq, not_exists, not_and]

/-- A list of entries answers the keys that it has. -/
theorem mem_keys_of_get? (h : entries.get? key ≠ none) : key ∈ entries.keys := by
  by_contra hnot
  exact h (get?_eq_none_iff.mpr hnot)

/-- A value that is put for a key is found for it, and the others as before. -/
theorem get?_put : (put other value entries).get? key = if other = key then some value else entries.get? key := by
  induction entries with
  | nil => by_cases heq : other = key <;> simp [put, get?, heq]
  | cons entry rest ih =>
    obtain ⟨first, old⟩ := entry
    by_cases hfirst : first = other
    · subst hfirst
      by_cases heq : first = key <;> simp [put, get?, heq]
    · by_cases heq : first = key
      · subst heq
        simp [put, get?, hfirst, Ne.symm hfirst]
      · simp only [put, if_neg hfirst, get?, List.find?_cons, heq, decide_false]
        exact ih

/-- Of a key that is given twice, the last value counts. -/
theorem get?_collapse (entries : Entries) (key : String) : entries.collapse.get? key = get? entries.reverse key := by
  rw [collapse, List.foldl_eq_foldr_reverse]
  induction entries.reverse with
  | nil => rfl
  | cons entry rest ih =>
    rw [List.foldr_cons, get?_put, ih]
    by_cases heq : entry.1 = key <;> simp [get?, heq]

/-- Where no key is there twice, the entries themselves are the answers. -/
theorem get?_eq_some_iff (h : entries.keys.Nodup) : entries.get? key = some value ↔ (key, value) ∈ entries := by
  induction entries with
  | nil => simp [get?]
  | cons entry rest ih =>
    obtain ⟨first, old⟩ := entry
    obtain ⟨hfirst, hrest⟩ := List.nodup_cons.mp h
    by_cases heq : first = key
    · subst heq
      have hnot : (first, value) ∉ rest := fun hmem => hfirst (List.mem_map_of_mem (f := (·.1)) hmem)
      simp [get?, hnot, eq_comm]
    · have hskip : get? ((first, old) :: rest) key = get? rest key := by simp [get?, heq]
      rw [hskip, ih hrest]
      simp [Ne.symm heq]

/-- Where no key is given twice, the order does not matter. -/
theorem get?_reverse (h : entries.keys.Nodup) : get? entries.reverse key = entries.get? key := by
  have hreverse : (keys entries.reverse).Nodup := by
    rw [keys, List.map_reverse, List.nodup_reverse]
    exact h
  refine Option.ext fun value => ?_
  rw [get?_eq_some_iff hreverse, get?_eq_some_iff h, List.mem_reverse]

/-- The value of the last entry for a key. -/
def last? (entries : Entries) (key : String) : Option String :=
  get? entries.reverse key

/-- Each key that entries have has a last value. -/
theorem last?_eq_none_iff : entries.last? key = none ↔ key ∉ entries.keys := by
  rw [last?, get?_eq_none_iff, keys, List.map_reverse, List.mem_reverse, keys]

/-- Of two lists of entries the second one has the last value. -/
theorem last?_append : last? (entries ++ more) key = (more.last? key).or (entries.last? key) := by
  rw [last?, List.reverse_append, get?_append]
  rfl

/-- Giving a key a value adds the key behind the others, unless it is there. -/
theorem keys_put : (put key value entries).keys = withName entries.keys key := by
  induction entries with
  | nil => rfl
  | cons entry rest ih =>
    obtain ⟨first, old⟩ := entry
    by_cases hfirst : first = key
    · simp [put, keys, withName, hfirst]
    · have hput : put key value ((first, old) :: rest) = (first, old) :: put key value rest := by simp [put, hfirst]
      have hkeys : keys ((first, old) :: put key value rest) = first :: withName (keys rest) key := by rw [← ih]; rfl
      rw [hput, hkeys]
      by_cases hmem : key ∈ keys rest
      · simp_all [withName, keys]
      · simp_all [withName, keys, eq_comm]

/-- Entries are collapsed by putting one after the other. -/
theorem collapse_eq_foldl (entries : Entries) :
    entries.collapse = entries.foldl (fun collapsed entry => put entry.1 entry.2 collapsed) [] :=
  rfl

/-- Each key is left once, in order of first occurrence. -/
theorem keys_collapse (entries : Entries) : entries.collapse.keys = entries.keys.eraseDups := by
  have hstep : ∀ collapsed : Entries,
      (entries.foldl (fun collapsed entry => put entry.1 entry.2 collapsed) collapsed).keys =
        entries.keys.foldl withName collapsed.keys := by
    induction entries with
    | nil => intro collapsed; rfl
    | cons entry rest ih =>
      intro collapsed
      rw [List.foldl_cons, ih, keys_put]
      rfl
  rw [collapse_eq_foldl, hstep, foldl_withName]
  simp [keys]

/-- A new key goes behind all others. -/
theorem put_of_notMem (h : key ∉ entries.keys) : put key value entries = entries ++ [(key, value)] := by
  induction entries with
  | nil => rfl
  | cons entry rest ih =>
    obtain ⟨first, old⟩ := entry
    rw [keys, List.map_cons, List.mem_cons, not_or] at h
    rw [put, if_neg (Ne.symm h.1), ih h.2, List.cons_append]

/-- Entries without a repeated key are what they stand for. -/
theorem collapse_eq_self (h : entries.keys.Nodup) : entries.collapse = entries := by
  have hstep : ∀ collapsed : Entries, (collapsed ++ entries).keys.Nodup →
      entries.foldl (fun collapsed entry => put entry.1 entry.2 collapsed) collapsed = collapsed ++ entries := by
    clear h
    induction entries with
    | nil => intro collapsed _; simp
    | cons entry rest ih =>
      intro collapsed hnodup
      obtain ⟨key, value⟩ := entry
      have hnew : key ∉ collapsed.keys := by
        intro hmem
        rw [keys, List.map_append, List.nodup_append] at hnodup
        exact hnodup.2.2 key hmem key (by simp) rfl
      have hcons : collapsed ++ (key, value) :: rest = collapsed ++ [(key, value)] ++ rest := by simp
      rw [hcons] at hnodup ⊢
      simp only [List.foldl_cons, put_of_notMem hnew]
      exact ih _ hnodup
  rw [collapse_eq_foldl]
  exact hstep [] h

/-! ## Collapsing entries in parts -/

/-- The keys of some entries and others behind them. -/
theorem keys_append : keys (entries ++ more) = entries.keys ++ more.keys :=
  List.map_append

/-- Collapsed entries have no key twice. -/
theorem nodup_keys_collapse (entries : Entries) : entries.collapse.keys.Nodup := by
  rw [keys_collapse]
  exact nodup_eraseDups entries.keys

/-- The last values are those that are left. -/
theorem last?_collapse (entries : Entries) (key : String) : entries.collapse.last? key = entries.last? key := by
  rw [last?, get?_reverse (nodup_keys_collapse entries), get?_collapse, last?]

/-- Entries without a repeated key can be told from their keys and the value of each. -/
theorem eq_map_keys (h : entries.keys.Nodup) : entries = entries.keys.map fun key => (key, (entries.get? key).getD "") := by
  have hentry : ∀ entry ∈ entries, (entry.1, (entries.get? entry.1).getD "") = entry := by
    intro entry hmem
    rw [(get?_eq_some_iff h).mpr hmem, Option.getD_some]
  rw [keys, List.map_map]
  exact ((List.map_congr_left hentry).trans (List.map_id entries)).symm

/-- Entries that have the same keys, in order of first occurrence, and the same last value of each stand for the same. -/
theorem collapse_congr (hkeys : entries.keys.eraseDups = more.keys.eraseDups) (hlast : ∀ key, entries.last? key = more.last? key) :
    entries.collapse = more.collapse := by
  have hget : entries.collapse.get? = more.collapse.get? := by
    funext key
    rw [get?_collapse, get?_collapse]
    exact hlast key
  rw [eq_map_keys (nodup_keys_collapse entries), eq_map_keys (nodup_keys_collapse more), keys_collapse, keys_collapse, hkeys, hget]

/-- Entries may be collapsed before others come behind them. -/
theorem collapse_collapse_append (entries more : Entries) : collapse (entries.collapse ++ more) = collapse (entries ++ more) := by
  refine collapse_congr ?_ fun key => ?_
  · rw [keys_append, keys_append, keys_collapse, eraseDups_eraseDups_append]
  · rw [last?_append, last?_append, last?_collapse]

/-- So may those that come behind them. -/
theorem collapse_append_collapse (entries more : Entries) : collapse (entries ++ more.collapse) = collapse (entries ++ more) := by
  refine collapse_congr ?_ fun key => ?_
  · rw [keys_append, keys_append, keys_collapse, eraseDups_append_eraseDups]
  · rw [last?_append, last?_append, last?_collapse]

/-- Saying everything twice adds nothing. -/
theorem collapse_append_self (entries : Entries) : collapse (entries ++ entries) = entries.collapse := by
  refine collapse_congr ?_ fun key => ?_
  · have hnone : entries.keys.removeAll entries.keys = [] := List.filter_eq_nil_iff.mpr fun key hmem => by simpa using hmem
    rw [keys_append, List.eraseDups_append, hnone, List.eraseDups_nil, List.append_nil]
  · rw [last?_append, Option.or_self]

end Entries

end Ignition

