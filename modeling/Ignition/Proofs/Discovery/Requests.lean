import Ignition.Discovery.Progress
import Ignition.Proofs.Config.Expansion
import Ignition.Proofs.Config.Profiles

/-!
# What requests for profiles do

The lists of profiles that an environment and a layer bind (`Environment.declared`, `Layer.activated` and so on), and what becomes of
the passes that wait and of the active profiles when such a list is granted, ignored or included. Taking a layer is described once for
each field of the progress (`accept_eq_ok`, `mem_active_take`, `mem_waiting_take`), and so is the beginning (`start_eq_ok`,
`awaits_asked`, `waiting_seed`).
-/

namespace Ignition

open Progress

/-! ## Lists that are bound -/

/-- The names in the list that a key has, expanded in an environment; none if it has no list or an unreadable one. -/
def boundNames (scope : Environment) (key : String) (value : Option String) : List String :=
  match boundProfiles scope key value with
  | .ok set => set.names
  | .error _ => []

/-- The profiles that an environment declares active. -/
def Environment.declared (env : Environment) : List String :=
  boundNames env Key.activeProfiles (env.get? Key.activeProfiles)

/-- The profiles that an environment includes. -/
def Environment.included (env : Environment) : List String :=
  boundNames env Key.includedProfiles (env.get? Key.includedProfiles)

/-- The profiles that a layer asks to activate in an environment, if it is read behind a number of others. -/
def Layer.activated (layer : Layer) (env : Environment) (earlier : Nat) : List String :=
  boundNames (scopeOf env layer earlier) Key.activeProfiles (layer.get? Key.activeProfiles)

/-- The profiles that a layer includes in an environment, if it is read behind a number of others. -/
def Layer.included (layer : Layer) (env : Environment) (earlier : Nat) : List String :=
  boundNames (scopeOf env layer earlier) Key.includedProfiles (layer.get? Key.includedProfiles)

/-- A layer with the profiles that it asks for in an environment, if it is read behind a number of others. -/
def Layer.asking (layer : Layer) (env : Environment) (earlier : Nat) : AskingLayer :=
  { layer, activated := layer.activated env earlier, included := layer.included env earlier }

/-- The profiles that a list names depend on an environment only through what its layers hold, and the depth of expansions. -/
theorem boundProfiles_congr {scope scope' : Environment} (hsources : scope.sources = scope'.sources)
    (hnesting : scope.nesting = scope'.nesting) (key : String) (value : Option String) :
    boundProfiles scope key value = boundProfiles scope' key value := by
  have hexpand : ∀ text, (scope.toward (.list key)).expand text = (scope'.toward (.list key)).expand text := fun _ =>
    Environment.expand_congr (Environment.sources_toward hsources _) hnesting
  simp only [boundProfiles, hexpand]

/-- The profiles that are active do not matter to the profiles that a list names. -/
theorem boundProfiles_active (scope : Environment) (active : List String) (key : String) (value : Option String) :
    boundProfiles { scope with active } key value = boundProfiles scope key value :=
  @boundProfiles_congr { scope with active } scope rfl rfl key value

/-- Profiles that are bound are those that some list names: where a key has no list, the empty one. -/
theorem parse_of_boundProfiles {scope : Environment} {key : String} {value : Option String} {set : ProfileSet}
    (h : boundProfiles scope key value = .ok set) : ∃ list, ProfileSet.parse key list = .ok set := by
  unfold boundProfiles at h
  split at h
  · cases h
    exact ⟨"", rfl⟩
  · rename_i text
    split at h
    · cases h
    · rename_i expanded _
      cases hparse : ProfileSet.parse key expanded with
      | error error => rw [hparse] at h; cases h
      | ok parsed =>
        rw [hparse] at h
        cases h
        exact ⟨expanded, hparse⟩

/-- A list that is bound names profiles none of which stands in. -/
theorem standsIn_of_boundProfiles {scope : Environment} {key : String} {value : Option String} {set : ProfileSet}
    (h : boundProfiles scope key value = .ok set) : ∀ profile ∈ set.profiles, profile.standsIn = false := by
  obtain ⟨list, hparse⟩ := parse_of_boundProfiles h
  exact ProfileSet.standsIn_of_parse hparse

/-- A list that is bound names no profile twice. -/
theorem nodup_of_boundProfiles {scope : Environment} {key : String} {value : Option String} {set : ProfileSet}
    (h : boundProfiles scope key value = .ok set) : set.names.Nodup := by
  obtain ⟨list, hparse⟩ := parse_of_boundProfiles h
  exact ProfileSet.nodup_of_parse hparse

namespace Progress

variable {p q : Progress} {set active included declared : ProfileSet} {env : Environment} {layer : Layer} {name : String}
  {pass : Option Profile}

/-! ## Passes that wait -/

/-- A profile of a name waits for its pass. -/
def Awaits (p : Progress) (name : String) : Prop :=
  ∃ profile, some profile ∈ p.waiting ∧ profile.name = name

/-- A search knows the profiles that had their pass and those that wait for one. -/
theorem knows_iff : p.knows name = true ↔ name ∈ p.processed.names ∨ p.Awaits name := by
  simp only [knows, Bool.or_eq_true, ProfileSet.contains_iff, List.any_eq_true, Awaits]
  refine or_congr_right ⟨?_, ?_⟩
  · rintro ⟨pass, hp, hn⟩
    cases pass with
    | none => cases hn
    | some profile => exact ⟨profile, hp, by simpa using hn⟩
  · rintro ⟨profile, hp, hn⟩
    exact ⟨some profile, hp, by simpa using hn⟩

/-- It does not know the others. -/
theorem knows_eq_false_iff : p.knows name = false ↔ name ∉ p.processed.names ∧ ¬p.Awaits name := by
  rw [← Bool.not_eq_true, knows_iff, not_or]

/-- After some profiles have been put to wait, those wait that waited before and those of them that were not known. -/
theorem mem_waiting_enqueue {profiles : List Profile} : pass ∈ (p.enqueue profiles).waiting ↔
    (∃ profile ∈ profiles, p.knows profile.name = false ∧ some profile = pass) ∨ pass ∈ p.waiting := by
  simp [enqueue, and_assoc]

/-- A profile that is put to wait does wait, unless it has had its pass. -/
theorem awaits_enqueue {profiles : List Profile} : (p.enqueue profiles).Awaits name ↔
    p.Awaits name ∨ name ∈ profiles.map (·.name) ∧ name ∉ p.processed.names := by
  constructor
  · rintro ⟨profile, hw, rfl⟩
    rcases mem_waiting_enqueue.mp hw with ⟨other, ho, hk, he⟩ | hw
    · cases he
      exact Or.inr ⟨List.mem_map_of_mem ho, (knows_eq_false_iff.mp hk).1⟩
    · exact Or.inl ⟨profile, hw, rfl⟩
  · rintro (⟨profile, hw, rfl⟩ | ⟨hn, hnew⟩)
    · exact ⟨profile, mem_waiting_enqueue.mpr (Or.inr hw), rfl⟩
    · obtain ⟨profile, hp, rfl⟩ := List.mem_map.mp hn
      by_cases hk : p.knows profile.name = true
      · obtain ⟨other, hw, he⟩ := (knows_iff.mp hk).resolve_left hnew
        exact ⟨other, mem_waiting_enqueue.mpr (Or.inr hw), he⟩
      · exact ⟨profile, mem_waiting_enqueue.mpr (Or.inl ⟨profile, hp, Bool.eq_false_iff.mpr hk, rfl⟩), rfl⟩

/-! ## Inclusion -/

/-- Including profiles makes them active and lets them wait, and changes nothing else. -/
theorem includeProfiles_eq : p.includeProfiles set =
    { p with
      environment := { p.environment with active := set.names.foldl withNameFirst p.environment.active }
      waiting := (p.enqueue set.profiles).waiting } := by
  simp only [includeProfiles, Environment.foldl_activateFirst, enqueue, knows, ProfileSet.names]

/-- Profiles that are included become active, and the others stay so. -/
theorem mem_active_includeProfiles :
    name ∈ (p.includeProfiles set).environment.active ↔ name ∈ p.environment.active ∨ name ∈ set.names := by
  rw [includeProfiles_eq]
  exact mem_foldl_of_mem_step mem_withNameFirst

/-! ## Activation -/

/-- A request that names no profile, or comes after one that was granted, leaves no more than a note. -/
theorem request_of_ignored (h : set.profiles = [] ∨ p.activated = true) : ∃ log, p.request set = { p with log } := by
  unfold request
  split
  · exact ⟨p.log, rfl⟩
  · rename_i hne
    rw [List.isEmpty_iff] at hne
    rw [if_pos (h.resolve_left hne)]
    exact ⟨_, rfl⟩

/-- The first request that names a profile is granted: its profiles are included, and those that stand in stop waiting. -/
theorem request_of_granted (hne : set.profiles ≠ []) (ha : p.activated = false) : p.request set =
    { p with
      environment := { p.environment with active := set.names.foldl withNameFirst p.environment.active }
      waiting := (p.enqueue set.profiles).waiting.filter (!standsIn ·)
      activated := true } := by
  have hempty : set.profiles.isEmpty = false := by simpa using hne
  simp [request, hempty, ha, includeProfiles_eq, enqueue, knows]

/-- A request is granted, or it is ignored. -/
theorem granted_or_ignored (p : Progress) (set : ProfileSet) :
    (set.profiles ≠ [] ∧ p.activated = false) ∨ (set.profiles = [] ∨ p.activated = true) := by
  cases p.activated <;> by_cases h : set.profiles = [] <;> simp [h]

/-- A request that is ignored grants no profile. -/
theorem not_granted_of_ignored (h : set.profiles = [] ∨ p.activated = true) : ¬(name ∈ set.names ∧ p.activated = false) := by
  rintro ⟨hn, ha⟩
  rcases h with h | h
  · rw [ProfileSet.names_eq_nil_iff.mpr h] at hn
    cases hn
  · rw [h] at ha
    cases ha

/-- A request changes nothing but the active profiles, what waits, whether an activation was granted, and the notes. -/
theorem request_eq : p.request set =
    { p with
      environment := { p.environment with active := (p.request set).environment.active }
      waiting := (p.request set).waiting
      activated := (p.request set).activated
      log := (p.request set).log } := by
  rcases granted_or_ignored p set with ⟨hne, ha⟩ | h
  · rw [request_of_granted hne ha]
  · obtain ⟨log, hr⟩ := request_of_ignored h
    rw [hr]

/-- A request processes no profile. -/
theorem processed_request : (p.request set).processed = p.processed := by
  rw [request_eq]

/-- A request is no milestone. -/
theorem history_request : (p.request set).history = p.history := by
  rw [request_eq]

/-- A request changes nothing about the environment but the active profiles. -/
theorem environment_request : (p.request set).environment =
    { p.environment with active := (p.request set).environment.active } := by
  rw [request_eq]

/-- After a request the search counts as activated if it did before, or if the request named a profile. -/
theorem activated_request : (p.request set).activated = true ↔ p.activated = true ∨ set.profiles ≠ [] := by
  rcases granted_or_ignored p set with ⟨hne, ha⟩ | h
  · rw [request_of_granted hne ha]
    simp [hne]
  · obtain ⟨log, hr⟩ := request_of_ignored h
    rw [hr]
    exact ⟨Or.inl, fun h' => h'.elim id fun hne => h.resolve_left hne⟩

/-- A request that is granted makes its profiles active. -/
theorem mem_active_request : name ∈ (p.request set).environment.active ↔
    name ∈ p.environment.active ∨ name ∈ set.names ∧ p.activated = false := by
  rcases granted_or_ignored p set with ⟨hne, ha⟩ | h
  · rw [request_of_granted hne ha]
    simp only [ha, and_true]
    exact mem_foldl_of_mem_step mem_withNameFirst
  · obtain ⟨log, hr⟩ := request_of_ignored h
    rw [hr]
    exact ⟨Or.inl, fun h' => h'.resolve_right (not_granted_of_ignored h)⟩

/-- A request that is empty, or comes after profiles were activated, lets no profile wait. -/
theorem waiting_request_of_ignored (h : set.profiles = [] ∨ p.activated = true) :
    (p.request set).waiting = p.waiting := by
  obtain ⟨log, hr⟩ := request_of_ignored h
  rw [hr]

/-- When a request is granted, those go on waiting that do not stand in, and its profiles that were not known wait now. -/
theorem mem_waiting_request_of_granted (hne : set.profiles ≠ []) (ha : p.activated = false) :
    pass ∈ (p.request set).waiting ↔ standsIn pass = false ∧
      ((∃ profile ∈ set.profiles, p.knows profile.name = false ∧ some profile = pass) ∨ pass ∈ p.waiting) := by
  rw [request_of_granted hne ha]
  simp only [List.mem_filter, mem_waiting_enqueue, Bool.not_eq_true']
  exact and_comm

/-- When a request is granted, those names wait that waited for more than standing in, and its own that were not known. -/
theorem awaits_request_of_granted (hne : set.profiles ≠ []) (ha : p.activated = false)
    (hexplicit : ∀ profile ∈ set.profiles, profile.standsIn = false) : (p.request set).Awaits name ↔
      (∃ profile, some profile ∈ p.waiting ∧ profile.name = name ∧ profile.standsIn = false) ∨
        name ∈ set.names ∧ p.knows name = false := by
  constructor
  · rintro ⟨profile, hw, rfl⟩
    obtain ⟨hs, ⟨other, ho, hk, he⟩ | hw⟩ := (mem_waiting_request_of_granted hne ha).mp hw
    · cases he
      exact Or.inr ⟨List.mem_map_of_mem ho, hk⟩
    · exact Or.inl ⟨profile, hw, rfl, hs⟩
  · rintro (⟨profile, hw, rfl, hs⟩ | ⟨hn, hk⟩)
    · exact ⟨profile, (mem_waiting_request_of_granted hne ha).mpr ⟨hs, Or.inr hw⟩, rfl⟩
    · obtain ⟨profile, hp, rfl⟩ := List.mem_map.mp hn
      exact ⟨profile, (mem_waiting_request_of_granted hne ha).mpr
        ⟨hexplicit profile hp, Or.inl ⟨profile, hp, hk, rfl⟩⟩, rfl⟩

/-! ## Taking a layer -/

/-- Taking a layer processes no profile. -/
theorem processed_take : (p.take active included layer).processed = p.processed := by
  rw [take, includeProfiles_eq]
  exact processed_request

/-- Taking a layer is one milestone, with the profiles that it asks for. -/
theorem history_take : (p.take active included layer).history =
    p.history ++ [.layer { layer, activated := active.names, included := included.names }] := by
  rw [take, includeProfiles_eq]
  exact congrArg (· ++ _) history_request

/-- Profiles are activated once a layer asks for some. -/
theorem activated_take : (p.take active included layer).activated = true ↔ p.activated = true ∨ active.profiles ≠ [] := by
  rw [take, includeProfiles_eq]
  exact activated_request

/-- Taking a layer changes nothing about the environment but the active profiles. -/
theorem environment_take : (p.take active included layer).environment =
    { p.environment with active := (p.take active included layer).environment.active } := by
  rw [take, includeProfiles_eq]
  simp only [reach]
  rw [environment_request]

/-- Active are the profiles that were, those of a request that is granted, and those that are included. -/
theorem mem_active_take : name ∈ (p.take active included layer).environment.active ↔
    (name ∈ p.environment.active ∨ name ∈ active.names ∧ p.activated = false) ∨ name ∈ included.names :=
  mem_active_includeProfiles.trans (or_congr_left mem_active_request)

/-- Behind a request those wait that it left waiting, and the included profiles that were not known to it. -/
theorem mem_waiting_take : pass ∈ (p.take active included layer).waiting ↔
    (∃ profile ∈ included.profiles, (p.request active).knows profile.name = false ∧ some profile = pass) ∨
      pass ∈ (p.request active).waiting := by
  rw [take, includeProfiles_eq]
  exact mem_waiting_enqueue

/-- An included profile waits unless it has had its pass. -/
theorem awaits_take : (p.take active included layer).Awaits name ↔
    (p.request active).Awaits name ∨ name ∈ included.names ∧ name ∉ p.processed.names := by
  rw [take, includeProfiles_eq]
  exact awaits_enqueue.trans (by rw [processed_request]; rfl)

/-- A layer is accepted if its lists can be read; then it is taken with the profiles that they name in the environment at the
beginning, of which only the active profiles have changed. -/
theorem accept_eq_ok (hover : p.environment = { env with active := p.environment.active }) (h : p.accept layer = .ok q) :
    ∃ active included : ProfileSet, active.names = layer.activated env p.loaded.length ∧
      included.names = layer.included env p.loaded.length ∧
      (∀ profile ∈ active.profiles, profile.standsIn = false) ∧
      (∀ profile ∈ included.profiles, profile.standsIn = false) ∧ q = p.take active included layer := by
  have hscope : ∀ key value, boundProfiles (scopeOf p.environment layer p.loaded.length) key value =
      boundProfiles (scopeOf env layer p.loaded.length) key value := by
    intro key value
    rw [hover]
    exact boundProfiles_active (scopeOf env layer p.loaded.length) _ key value
  simp only [accept, hscope] at h
  cases hactive : boundProfiles (scopeOf env layer p.loaded.length) Key.activeProfiles (layer.get? Key.activeProfiles) with
  | error fault => rw [hactive] at h; cases h
  | ok active =>
    rw [hactive] at h
    cases hincluded : boundProfiles (scopeOf env layer p.loaded.length) Key.includedProfiles (layer.get? Key.includedProfiles) with
    | error fault => rw [hincluded] at h; cases h
    | ok included =>
      rw [hincluded] at h
      cases h
      refine ⟨active, included, ?_, ?_, standsIn_of_boundProfiles hactive, standsIn_of_boundProfiles hincluded, rfl⟩
      · rw [Layer.activated, boundNames, hactive]
      · rw [Layer.included, boundNames, hincluded]

/-- Accepting a layer takes it. -/
theorem accept_eq_take (h : p.accept layer = .ok q) : ∃ active included, q = p.take active included layer := by
  have hsame : p.environment = { p.environment with active := p.environment.active } := rfl
  obtain ⟨active, included, -, -, -, -, hq⟩ := accept_eq_ok hsame h
  exact ⟨active, included, hq⟩

/-! ## The beginning -/

/-- A request that is the first thing to happen lets all its profiles wait. -/
theorem mem_waiting_request_of_fresh (hexplicit : ∀ profile ∈ set.profiles, profile.standsIn = false) :
    pass ∈ (({ environment := env } : Progress).request set).waiting ↔ ∃ profile ∈ set.profiles, some profile = pass := by
  by_cases hne : set.profiles = []
  · rw [waiting_request_of_ignored (Or.inl hne), hne]
    simp
  · rw [mem_waiting_request_of_granted hne rfl]
    constructor
    · rintro ⟨-, ⟨profile, hp, -, he⟩ | hp⟩
      · exact ⟨profile, hp, he⟩
      · cases hp
    · rintro ⟨profile, hp, rfl⟩
      refine ⟨by simpa [standsIn] using hexplicit profile hp, Or.inl ⟨profile, hp, ?_, rfl⟩⟩
      rw [knows_eq_false_iff]
      exact ⟨List.not_mem_nil, fun ⟨_, hw, _⟩ => List.not_mem_nil hw⟩

/-- The environment at the beginning is the one given, with the profiles that it asks for active. -/
theorem environment_asked : (asked env included declared).environment =
    { env with active := (asked env included declared).environment.active } := by
  simp only [asked, enqueue, Environment.foldl_activate]
  rw [environment_request]

/-- At the beginning those profiles are active that the environment has, includes or declares. -/
theorem mem_active_asked : name ∈ (asked env included declared).environment.active ↔
    name ∈ env.active ∨ name ∈ included.names ∨ name ∈ declared.names := by
  simp only [asked, enqueue, Environment.foldl_activate]
  rw [mem_active_request, ProfileSet.mem_names_extend]
  simp only [and_true]
  rw [mem_foldl_of_mem_step mem_withName, ProfileSet.names, ProfileSet.names]
  tauto

/-- At the beginning no profile is processed. -/
theorem processed_asked : (asked env included declared).processed = {} := by
  simp only [asked, enqueue]
  exact processed_request

/-- Nor is there a milestone. -/
theorem history_asked : (asked env included declared).history = [] := by
  simp only [asked, enqueue]
  exact history_request

/-- At the beginning the search counts as activated unless the environment includes and declares no profile. -/
theorem activated_asked : (asked env included declared).activated = true ↔ ¬(included.names = [] ∧ declared.names = []) := by
  simp only [asked, enqueue]
  rw [activated_request, ← ProfileSet.names_extend_eq_nil_iff, ProfileSet.names_eq_nil_iff]
  simp

/-- At the beginning only profiles that are active wait, and none of them stands in. -/
theorem mem_waiting_asked (hincluded : ∀ profile ∈ included.profiles, profile.standsIn = false)
    (hdeclared : ∀ profile ∈ declared.profiles, profile.standsIn = false)
    (h : pass ∈ (asked env included declared).waiting) :
    ∃ profile, pass = some profile ∧ profile.standsIn = false ∧
      profile.name ∈ (asked env included declared).environment.active := by
  have hinitial : ∀ profile ∈ (included.extend declared.profiles).profiles, profile.standsIn = false := fun profile hp =>
    (ProfileSet.mem_extend hp).elim (hincluded profile) (hdeclared profile)
  rcases mem_waiting_enqueue.mp h with ⟨profile, hp, -, rfl⟩ | h
  · obtain ⟨name, hn, rfl⟩ := List.mem_map.mp hp
    exact ⟨_, rfl, rfl, (List.mem_filter.mp hn).1⟩
  · obtain ⟨profile, hp, rfl⟩ := (mem_waiting_request_of_fresh hinitial).mp h
    refine ⟨profile, rfl, hinitial profile hp, ?_⟩
    exact mem_active_asked.mpr (Or.inr (ProfileSet.mem_names_extend.mp (List.mem_map_of_mem hp)))

/-- At the beginning exactly the active profiles wait. -/
theorem awaits_asked (hincluded : ∀ profile ∈ included.profiles, profile.standsIn = false)
    (hdeclared : ∀ profile ∈ declared.profiles, profile.standsIn = false) :
    (asked env included declared).Awaits name ↔ name ∈ (asked env included declared).environment.active := by
  have hinitial : ∀ profile ∈ (included.extend declared.profiles).profiles, profile.standsIn = false := fun profile hp =>
    (ProfileSet.mem_extend hp).elim (hincluded profile) (hdeclared profile)
  constructor
  · rintro ⟨profile, hw, rfl⟩
    obtain ⟨_, he, -, hactive⟩ := mem_waiting_asked hincluded hdeclared hw
    cases he
    exact hactive
  · intro hactive
    refine awaits_enqueue.mpr ?_
    by_cases hn : name ∈ (included.extend declared.profiles).names
    · obtain ⟨profile, hp, rfl⟩ := List.mem_map.mp hn
      exact Or.inl ⟨profile, (mem_waiting_request_of_fresh hinitial).mpr ⟨profile, hp, rfl⟩, rfl⟩
    · refine Or.inr ⟨?_, ?_⟩
      · simp only [List.map_map, Function.comp_def, List.map_id']
        exact List.mem_filter.mpr ⟨hactive, by rw [ProfileSet.contains_eq_false_iff.mpr hn]; rfl⟩
      · rw [processed_request]
        exact List.not_mem_nil

/-- At the beginning no profile waits exactly if the environment asks for none. -/
theorem waiting_asked_eq_nil_iff (hincluded : ∀ profile ∈ included.profiles, profile.standsIn = false)
    (hdeclared : ∀ profile ∈ declared.profiles, profile.standsIn = false) :
    (asked env included declared).waiting = [] ↔ env.active = [] ∧ included.names = [] ∧ declared.names = [] := by
  have hempty : (asked env included declared).waiting = [] ↔ ∀ name, ¬(asked env included declared).Awaits name := by
    constructor
    · rintro hw name ⟨profile, hp, -⟩
      rw [hw] at hp
      cases hp
    · intro hnone
      rw [List.eq_nil_iff_forall_not_mem]
      intro pass hpass
      obtain ⟨profile, rfl, -, -⟩ := mem_waiting_asked hincluded hdeclared hpass
      exact hnone profile.name ⟨profile, hpass, rfl⟩
  rw [hempty]
  simp only [awaits_asked hincluded hdeclared, mem_active_asked, not_or, forall_and, List.eq_nil_iff_forall_not_mem]

/-- The passes at the beginning: the pass for no profile, and behind it those that the environment asks for, or, if no profile is
active, those that stand in. -/
theorem waiting_seed : (seed env included declared).waiting = none ::
    if (asked env included declared).waiting = [] then env.defaults.map fun name => some { name, standsIn := true }
    else (asked env included declared).waiting := by
  by_cases hw : (asked env included declared).waiting = []
  · have hknows : ∀ name, (asked env included declared).knows name = false := by
      intro name
      rw [knows_eq_false_iff, processed_asked]
      exact ⟨List.not_mem_nil, fun ⟨_, h, _⟩ => by rw [hw] at h; cases h⟩
    have hdefaults : (asked env included declared).environment.defaults = env.defaults := by rw [environment_asked]
    simp only [seed, hw, List.isEmpty_nil, if_true]
    simp [enqueue, hknows, hw, hdefaults]
  · simp [seed, hw]

/-- Apart from the passes that wait, the beginning is what the environment asks for. -/
theorem seed_eq (rest : List (Option Profile)) : ({ seed env included declared with waiting := rest } : Progress) =
    { asked env included declared with waiting := rest } := by
  unfold seed
  simp only
  split <;> rfl

/-- A search begins if the lists of the environment can be read. -/
theorem start_eq_ok (h : Progress.start env = .ok p) :
    ∃ included declared : ProfileSet, included.names = env.included ∧ declared.names = env.declared ∧
      (∀ profile ∈ included.profiles, profile.standsIn = false) ∧
      (∀ profile ∈ declared.profiles, profile.standsIn = false) ∧ p = seed env included declared := by
  simp only [Progress.start] at h
  cases hincluded : boundProfiles env Key.includedProfiles (env.get? Key.includedProfiles) with
  | error fault => rw [hincluded] at h; cases h
  | ok included =>
    rw [hincluded] at h
    cases hdeclared : boundProfiles env Key.activeProfiles (env.get? Key.activeProfiles) with
    | error fault => rw [hdeclared] at h; cases h
    | ok declared =>
      rw [hdeclared] at h
      cases h
      refine ⟨included, declared, ?_, ?_, standsIn_of_boundProfiles hincluded, standsIn_of_boundProfiles hdeclared, rfl⟩
      · rw [Environment.included, boundNames, hincluded]
      · rw [Environment.declared, boundNames, hdeclared]

end Progress

end Ignition
