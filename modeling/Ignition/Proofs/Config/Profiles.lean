import Ignition.Config.Environment
import Ignition.Config.Profile
import Mathlib.Data.List.Induction
import Mathlib.Data.List.Nodup

/-!
# Names and profiles without repetition

The lists of names that an environment keeps, and sets of profiles: what they hold after insertions, and that no name comes in twice.
-/

namespace Ignition

/-! ## Lists of names -/

/-- A list with a name has this name and those that it had. -/
theorem mem_withName {names : List String} {name other : String} :
    other ∈ withName names name ↔ other ∈ names ∨ other = name := by
  unfold withName
  split
  · rename_i h
    rw [List.contains_iff_mem] at h
    exact ⟨Or.inl, fun ho => ho.elim id fun e => e ▸ h⟩
  · simp

/-- A list with a name ahead has this name and those that it had. -/
theorem mem_withNameFirst {names : List String} {name other : String} :
    other ∈ withNameFirst names name ↔ other ∈ names ∨ other = name := by
  unfold withNameFirst
  split
  · rename_i h
    rw [List.contains_iff_mem] at h
    exact ⟨Or.inl, fun ho => ho.elim id fun e => e ▸ h⟩
  · simp [or_comm]

/-- A step that adds one element to a list adds, made for each element of a list, all of them. -/
theorem mem_foldl_of_mem_step {α : Type} {step : List α → α → List α}
    (hstep : ∀ {l : List α} {a x : α}, x ∈ step l a ↔ x ∈ l ∨ x = a) {base added : List α} {x : α} :
    x ∈ added.foldl step base ↔ x ∈ base ∨ x ∈ added := by
  induction added generalizing base with
  | nil => simp
  | cons a added ih => rw [List.foldl_cons, ih, hstep, List.mem_cons, or_assoc]

/-- Names that are added one after the other go behind those that are there, each new one once, in order of first occurrence. -/
theorem foldl_withName (names added : List String) :
    added.foldl withName names = names ++ (added.filter (· ∉ names)).eraseDups := by
  induction added generalizing names with
  | nil => simp
  | cons name added ih =>
    rw [List.foldl_cons, ih]
    by_cases hmem : name ∈ names
    · simp [withName, hmem]
    · have hrest : added.filter (· ∉ names ++ [name]) = (added.filter (· ∉ names)).filter (!· == name) := by
        rw [List.filter_filter]
        refine List.filter_congr fun other _ => ?_
        by_cases heq : other = name <;> simp [heq]
      have hnew : withName names name = names ++ [name] := by simp [withName, hmem]
      rw [hnew, hrest, List.filter_cons_of_pos (by simpa using hmem), List.eraseDups_cons, List.append_assoc, List.singleton_append]

/-- Adding a name to a list without repetitions repeats none. -/
theorem nodup_withName {names : List String} {name : String} (h : names.Nodup) : (withName names name).Nodup := by
  unfold withName
  split
  · exact h
  · rename_i hnew
    rw [List.contains_iff_mem] at hnew
    exact List.nodup_append.mpr ⟨h, List.nodup_singleton name, fun other ho _ hn he =>
      hnew (List.mem_singleton.mp hn ▸ he ▸ ho)⟩

/-- Nor does adding it ahead. -/
theorem nodup_withNameFirst {names : List String} {name : String} (h : names.Nodup) : (withNameFirst names name).Nodup := by
  unfold withNameFirst
  split
  · exact h
  · rename_i hnew
    rw [List.contains_iff_mem] at hnew
    exact List.nodup_cons.mpr ⟨hnew, h⟩

/-- Adding a name keeps the others in order. -/
theorem sublist_withName (names : List String) (name : String) : names.Sublist (withName names name) := by
  unfold withName
  split
  · exact List.Sublist.refl names
  · exact List.sublist_append_left names [name]

/-- So does adding it ahead. -/
theorem sublist_withNameFirst (names : List String) (name : String) : names.Sublist (withNameFirst names name) := by
  unfold withNameFirst
  split
  · exact List.Sublist.refl names
  · exact List.sublist_cons_self name names

/-- Names have grown: those that there were are still there in order, and none is there twice if none was before. -/
structure Grown (names grown : List String) : Prop where
  /-- The names are still there, in order. -/
  sublist : names.Sublist grown
  /-- None is there twice. -/
  nodup : names.Nodup → grown.Nodup

/-- A list is grown from itself. -/
theorem Grown.refl (names : List String) : Grown names names :=
  ⟨.refl names, id⟩

/-- A list that is grown from a grown one is grown. -/
theorem Grown.trans {names more most : List String} (h : Grown names more) (h' : Grown more most) : Grown names most :=
  ⟨h.sublist.trans h'.sublist, fun hn => h'.nodup (h.nodup hn)⟩

/-- Adding a name lets a list grow. -/
theorem grown_withName (names : List String) (name : String) : Grown names (withName names name) :=
  ⟨sublist_withName names name, nodup_withName⟩

/-- So does adding it ahead. -/
theorem grown_withNameFirst (names : List String) (name : String) : Grown names (withNameFirst names name) :=
  ⟨sublist_withNameFirst names name, nodup_withNameFirst⟩

/-- Names grow step by step. -/
theorem Grown.foldl {step : List String → String → List String} (hstep : ∀ names name, Grown names (step names name))
    (names added : List String) : Grown names (added.foldl step names) :=
  List.foldlRecOn added step (.refl names) fun more h name _ => h.trans (hstep more name)

/-- Names each of which is given once are left as they are. -/
theorem eraseDups_of_nodup {names : List String} (h : names.Nodup) : names.eraseDups = names := by
  induction names with
  | nil => rfl
  | cons name names ih =>
    obtain ⟨hname, hnames⟩ := List.nodup_cons.mp h
    have hothers : ∀ other ∈ names, (!other == name) = true := by
      intro other hother
      simpa using fun heq : other = name => hname (heq ▸ hother)
    rw [List.eraseDups_cons, List.filter_eq_self.mpr hothers, ih hnames]

/-- Dropping repeated names is adding the names one after the other. -/
theorem eraseDups_eq_foldl (names : List String) : names.eraseDups = names.foldl withName [] := by
  simpa using (foldl_withName [] names).symm

/-- Without the repeated ones, no name is there twice. -/
theorem nodup_eraseDups (names : List String) : names.eraseDups.Nodup := by
  rw [eraseDups_eq_foldl]
  exact (Grown.foldl grown_withName [] names).nodup List.nodup_nil

/-- A name behind a list is added, once the repeated ones are left out, unless it is there. -/
theorem eraseDups_concat (names : List String) (name : String) : (names ++ [name]).eraseDups = withName names.eraseDups name := by
  simp only [eraseDups_eq_foldl, List.foldl_append, List.foldl_cons, List.foldl_nil]

/-- Repeated names may be dropped from the first part of a list beforehand. -/
theorem eraseDups_eraseDups_append (names more : List String) : (names.eraseDups ++ more).eraseDups = (names ++ more).eraseDups := by
  have hnames : names.eraseDups.foldl withName [] = names.foldl withName [] := by
    rw [← eraseDups_eq_foldl, ← eraseDups_eq_foldl, eraseDups_of_nodup (nodup_eraseDups names)]
  rw [eraseDups_eq_foldl, List.foldl_append, hnames, ← List.foldl_append, ← eraseDups_eq_foldl]

/-- Repeated names may be dropped from the last part of a list beforehand. -/
theorem eraseDups_append_eraseDups (names more : List String) : (names ++ more.eraseDups).eraseDups = (names ++ more).eraseDups := by
  induction more using List.reverseRecOn with
  | nil => rfl
  | append_singleton more name ih =>
    have hright : (names ++ (more ++ [name])).eraseDups = withName (names ++ more).eraseDups name := by
      rw [← List.append_assoc, eraseDups_concat]
    rw [hright, eraseDups_concat, ← ih]
    by_cases hmem : name ∈ more
    · simp [withName, hmem]
    · have hnew : withName more.eraseDups name = more.eraseDups ++ [name] := by simp [withName, hmem]
      rw [hnew, ← List.append_assoc, eraseDups_concat]

/-- Activating profiles changes nothing but the active ones, which are then those before and behind them the new ones. -/
theorem Environment.foldl_activate (env : Environment) (profiles : List Profile) :
    profiles.foldl (fun env profile => env.activate profile.name) env =
      { env with active := (profiles.map (·.name)).foldl withName env.active } := by
  induction profiles generalizing env with
  | nil => rfl
  | cons profile profiles ih => rw [List.foldl_cons, ih]; rfl

/-- Activating profiles ahead of the others changes nothing but the active ones. -/
theorem Environment.foldl_activateFirst (env : Environment) (profiles : List Profile) :
    profiles.foldl (fun env profile => env.activateFirst profile.name) env =
      { env with active := (profiles.map (·.name)).foldl withNameFirst env.active } := by
  induction profiles generalizing env with
  | nil => rfl
  | cons profile profiles ih => rw [List.foldl_cons, ih]; rfl

/-! ## Sets of profiles -/

namespace ProfileSet

variable {set : ProfileSet} {profile : Profile} {profiles : List Profile} {name : String}

/-- A set contains the names that it has. -/
theorem contains_iff : set.contains name = true ↔ name ∈ set.names :=
  List.contains_iff_mem

/-- It does not contain the others. -/
theorem contains_eq_false_iff : set.contains name = false ↔ name ∉ set.names := by
  rw [← Bool.not_eq_true, contains_iff]

/-- A profile that is new goes behind all others. -/
theorem names_insert_of_notMem (h : profile.name ∉ set.names) :
    (set.insert profile).names = set.names ++ [profile.name] := by
  simp [insert, contains_eq_false_iff.mpr h, names]

/-- A profile comes into a set by insertion or was there before. -/
theorem mem_insert {other : Profile} (h : other ∈ (set.insert profile).profiles) :
    other ∈ set.profiles ∨ other = profile := by
  unfold insert at h
  split at h
  · exact Or.inl h
  · simpa using h

/-- A profile that is inserted adds its name. -/
theorem mem_names_insert : name ∈ (set.insert profile).names ↔ name ∈ set.names ∨ name = profile.name := by
  by_cases h : profile.name ∈ set.names
  · rw [insert, if_pos (contains_iff.mpr h)]
    exact ⟨Or.inl, fun hn => hn.elim id fun e => e ▸ h⟩
  · rw [names_insert_of_notMem h, List.mem_append, List.mem_singleton]

/-- A set that is extended has no profiles but its own and those that it is extended by. -/
theorem mem_extend {other : Profile} (h : other ∈ (set.extend profiles).profiles) :
    other ∈ set.profiles ∨ other ∈ profiles := by
  induction profiles generalizing set with
  | nil => exact Or.inl h
  | cons profile profiles ih =>
    rcases ih h with h | h
    · rcases mem_insert h with h | rfl
      · exact Or.inl h
      · exact Or.inr List.mem_cons_self
    · exact Or.inr (List.mem_cons_of_mem _ h)

/-- Its names are its own and those that it is extended by. -/
theorem mem_names_extend :
    name ∈ (set.extend profiles).names ↔ name ∈ set.names ∨ name ∈ profiles.map (·.name) := by
  induction profiles generalizing set with
  | nil => simp [extend]
  | cons profile profiles ih =>
    have h := @ih (set.insert profile)
    rw [mem_names_insert] at h
    rw [List.map_cons, List.mem_cons, ← or_assoc]
    exact h

/-- A set without names has no profiles. -/
theorem names_eq_nil_iff : set.names = [] ↔ set.profiles = [] :=
  List.map_eq_nil_iff

/-- An extended set is empty exactly if both are. -/
theorem names_extend_eq_nil_iff {other : ProfileSet} :
    (set.extend other.profiles).names = [] ↔ set.names = [] ∧ other.names = [] := by
  simp only [List.eq_nil_iff_forall_not_mem, mem_names_extend, not_or, forall_and]
  rfl

/-- The profiles that a list names were asked for: none of them stands in. -/
theorem standsIn_of_parse {key list : String} (h : ProfileSet.parse key list = .ok set) :
    ∀ profile ∈ set.profiles, profile.standsIn = false := by
  intro profile hp
  unfold ProfileSet.parse at h
  simp only at h
  split at h
  · cases h
  · cases h
    rcases mem_extend hp with hp | hp
    · cases hp
    · obtain ⟨name, -, rfl⟩ := List.mem_map.mp hp
      rfl

/-- A set has no name twice, and inserting a profile repeats none. -/
theorem nodup_insert (h : set.names.Nodup) : (set.insert profile).names.Nodup := by
  by_cases hmem : profile.name ∈ set.names
  · rw [insert, if_pos (contains_iff.mpr hmem)]
    exact h
  · rw [names_insert_of_notMem hmem]
    exact h.append (List.nodup_singleton _) (List.disjoint_singleton.mpr hmem)

/-- A set that is extended holds no name twice if it did not before. -/
theorem nodup_extend (h : set.names.Nodup) : (set.extend profiles).names.Nodup := by
  induction profiles generalizing set with
  | nil => exact h
  | cons profile profiles ih => exact ih (nodup_insert h)

/-- Profiles of different names that extend a set go behind it, but for those of names that it holds. -/
theorem names_extend (h : (profiles.map (·.name)).Nodup) :
    (set.extend profiles).names = set.names ++ (profiles.map (·.name)).filter (· ∉ set.names) := by
  induction profiles generalizing set with
  | nil => simp [extend]
  | cons profile profiles ih =>
    rw [List.map_cons, List.nodup_cons] at h
    have hrest : (set.extend (profile :: profiles)).names = ((set.insert profile).extend profiles).names := rfl
    rw [hrest, ih h.2]
    by_cases hmem : profile.name ∈ set.names
    · rw [insert, if_pos (contains_iff.mpr hmem), List.map_cons, List.filter_cons_of_neg (by simpa using hmem)]
    · have hsame : ∀ name ∈ profiles.map (·.name), decide (name ∉ set.names ++ [profile.name]) = decide (name ∉ set.names) := by
        intro name hname
        have hne : name ≠ profile.name := fun heq => h.1 (heq ▸ hname)
        simp [hne]
      rw [names_insert_of_notMem hmem, List.map_cons, List.filter_cons_of_pos (by simpa using hmem), List.filter_congr hsame,
        List.append_assoc]
      rfl

/-- A list names no profile twice. -/
theorem nodup_of_parse {key list : String} (h : ProfileSet.parse key list = .ok set) : set.names.Nodup := by
  unfold ProfileSet.parse at h
  simp only at h
  split at h
  · cases h
  · cases h
    exact nodup_extend List.nodup_nil

end ProfileSet

end Ignition
