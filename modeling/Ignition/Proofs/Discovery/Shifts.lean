import Ignition.Proofs.Discovery.Passes
import Mathlib.Data.Option.Basic

/-!
# The moments of a search

A search is followed from moment to moment (`Shift`): it asks for the profiles of one list at a time, and between such moments it notes
events, looks up locations, begins passes and ends them. A search that came to its end was led there by shifts from where it set out
(`Completed.course`). What a shift does to the passes that wait is said once (`Effect`): some profiles come to wait ahead of the others
(`Queues`), or nothing changes about them, or the next one is taken away.
-/

namespace Ignition

namespace Discovery

open Progress
open Relation (ReflTransGen)

/-! ## Moments -/

/-- Where a search stands. -/
inductive Stage where
  /-- The first passes are put to wait. -/
  | seeding
  /-- The pass for a profile, or for none, is going on. -/
  | within (profile : Option String)
  /-- A pass is over, and no other one has begun. -/
  | between
deriving DecidableEq

/-- A moment of a search. -/
structure Moment where
  /-- Where the search stands. -/
  stage : Stage
  /-- How far it has come. -/
  progress : Progress

namespace Moment

/-- The profile whose pass is going on. -/
def current (m : Moment) : Option String :=
  match m.stage with
  | .within profile => profile
  | .seeding | .between => none

/-- A profile waits for its pass. -/
def Awaits (m : Moment) (name : String) : Prop :=
  m.progress.Awaits name

/-- The passes that have begun. -/
def begun (m : Moment) : List (Option String) :=
  Milestone.passes m.progress.history

end Moment

/-- The moment at which a search in an environment sets out: the profiles that it declares are active. -/
def outset (env : Environment) : Moment where
  stage := .seeding
  progress := { environment := { env with active := env.declared.foldl withName env.active } }

/-- What a search does from one moment to the next, and the list of the profiles that it asks for meanwhile, if any. -/
inductive Shift (plan : SearchPlan) (resources : Resources) (env : Environment) : Moment → List String → Moment → Prop where
  /-- The profiles are asked for that the environment includes, and those that it declares. -/
  | asked {p : Progress} {included declared : ProfileSet} :
      boundProfiles env Key.includedProfiles (env.get? Key.includedProfiles) = .ok included →
      boundProfiles env Key.activeProfiles (env.get? Key.activeProfiles) = .ok declared →
      Shift plan resources env ⟨.seeding, p⟩ (included.extend declared.profiles).names
        ⟨.seeding, p.request (included.extend declared.profiles)⟩
  /-- Other active profiles are put to wait. -/
  | others {p : Progress} {names : List String} : names ⊆ p.environment.active →
      Shift plan resources env ⟨.seeding, p⟩ [] ⟨.seeding, p.enqueue (names.map fun name => { name })⟩
  /-- If nothing waits, the profiles are put to wait that stand in. -/
  | standIns {p : Progress} : p.waiting = [] →
      Shift plan resources env ⟨.seeding, p⟩ []
        ⟨.seeding, p.enqueue (p.environment.defaults.map fun name => { name, standsIn := true })⟩
  /-- The pass for no profile begins. -/
  | opened {p : Progress} : Shift plan resources env ⟨.seeding, p⟩ [] ⟨.within none, p.reach (.pass none)⟩
  /-- An event is noted. -/
  | noted {profile : Option String} {p : Progress} {level : LogLevel} {message : String} {fields : List (String × LogValue)} :
      Shift plan resources env ⟨.within profile, p⟩ [] ⟨.within profile, p.note level message fields⟩
  /-- A location is looked up. -/
  | lookedUp {profile : Option String} {p : Progress} {location : String} :
      Shift plan resources env ⟨.within profile, p⟩ [] ⟨.within profile, { p with probed := p.probed ++ [location] }⟩
  /-- The profiles are asked for that a layer activates. -/
  | activated {profile : Option String} {p : Progress} {layer : Layer} {set : ProfileSet} : plan.Gives resources layer →
      boundProfiles (scopeOf p.environment layer p.loaded.length) Key.activeProfiles (layer.get? Key.activeProfiles) = .ok set →
      Shift plan resources env ⟨.within profile, p⟩ set.names ⟨.within profile, p.request set⟩
  /-- The profiles are asked for that a layer includes. -/
  | included {profile : Option String} {p : Progress} {layer : Layer} {set : ProfileSet} : plan.Gives resources layer →
      boundProfiles (scopeOf p.environment layer p.loaded.length) Key.includedProfiles (layer.get? Key.includedProfiles) = .ok set →
      Shift plan resources env ⟨.within profile, p⟩ set.names ⟨.within profile, p.includeProfiles set⟩
  /-- A layer has been read, from which two lists were bound. -/
  | read {profile : Option String} {p : Progress} {layer : Layer} {active included : ProfileSet} : plan.Gives resources layer →
      boundProfiles (scopeOf p.environment layer p.loaded.length) Key.activeProfiles (layer.get? Key.activeProfiles) = .ok active →
      boundProfiles (scopeOf p.environment layer p.loaded.length) Key.includedProfiles (layer.get? Key.includedProfiles) = .ok included →
      Shift plan resources env ⟨.within profile, p⟩ []
        ⟨.within profile, p.reach (.layer { layer, activated := active.names, included := included.names })⟩
  /-- The pass for no profile is over. -/
  | closed {p : Progress} : Shift plan resources env ⟨.within none, p⟩ [] ⟨.between, p⟩
  /-- The pass for a profile is over. -/
  | finished {p : Progress} {profile : Profile} :
      Shift plan resources env ⟨.within (some profile.name), p⟩ [] ⟨.between, { p with processed := p.processed.insert profile }⟩
  /-- A profile is skipped that has had its pass. -/
  | skipped {p : Progress} {profile : Profile} {rest : List (Option Profile)} : p.waiting = some profile :: rest →
      p.processed.contains profile.name = true → Shift plan resources env ⟨.between, p⟩ [] ⟨.between, { p with waiting := rest }⟩
  /-- The pass for a profile begins. -/
  | begun {p : Progress} {profile : Profile} {rest : List (Option Profile)} : p.waiting = some profile :: rest →
      p.processed.contains profile.name = false →
      Shift plan resources env ⟨.between, p⟩ [] ⟨.within (some profile.name), beginning p profile rest⟩

/-- A search leads by shifts from one moment to another. -/
def Course (plan : SearchPlan) (resources : Resources) (env : Environment) : Moment → Moment → Prop :=
  ReflTransGen fun m m' => ∃ names, Shift plan resources env m names m'

/-- A search leads by shifts from one moment to another, and a profile waits at each moment before the last. -/
def WaitingCourse (plan : SearchPlan) (resources : Resources) (env : Environment) (name : String) : Moment → Moment → Prop :=
  ReflTransGen fun m m' => m.Awaits name ∧ ∃ names, Shift plan resources env m names m'

/-- The names in a list that have come to be known. -/
def entrants (p q : Progress) (names : List String) : List String :=
  names.filter fun name => !p.knows name && q.knows name

variable {plan : SearchPlan} {resources : Resources} {env : Environment}

/-! ## What a shift does to the passes that wait -/

section Effects

variable {p q : Progress} {new : List Profile} {kept : List (Option Profile)} {name : String} {set : ProfileSet}

/-- Some profiles come to wait ahead of those that go on waiting: all that waited, or all but those that stand in. -/
structure Queues (p q : Progress) (new : List Profile) (kept : List (Option Profile)) : Prop where
  /-- The new ones are ahead of the others. -/
  waiting : q.waiting = new.map some ++ kept
  /-- The others waited before; all of them go on waiting, or all but those that stand in. -/
  kept : kept = p.waiting ∨ kept = p.waiting.filter (!standsIn ·)
  /-- The new ones were not known. -/
  unknown : ∀ profile ∈ new, p.knows profile.name = false
  /-- Only where nothing waited they may stand in. -/
  explicit : (∀ profile ∈ new, profile.standsIn = false) ∨ p.waiting = []
  /-- No pass ends, -/
  processed : q.processed = p.processed
  /-- and none begins. -/
  history : q.history = p.history

/-- The passes that are kept waited before. -/
theorem Queues.kept_subset (h : Queues p q new kept) : kept ⊆ p.waiting := by
  rcases h.kept with hkept | hkept
  · rw [hkept]
    exact fun _ => id
  · rw [hkept]
    exact List.filter_subset_self _

/-- Whoever waited already is none of the new ones. -/
theorem Queues.name_ne (h : Queues p q new kept) (hawaits : p.Awaits name) : ∀ profile ∈ new, profile.name ≠ name := by
  rintro profile hp rfl
  exact (knows_eq_false_iff.mp (h.unknown profile hp)).2 hawaits

/-- Nothing but a new one comes to be known. -/
theorem Queues.knows_iff (h : Queues p q new kept) (hnot : p.knows name = false) :
    q.knows name = true ↔ ∃ profile ∈ new, profile.name = name := by
  obtain ⟨hprocessed, hawaits⟩ := knows_eq_false_iff.mp hnot
  rw [Progress.knows_iff, h.processed]
  constructor
  · rintro (hmem | ⟨profile, hw, rfl⟩)
    · exact absurd hmem hprocessed
    · rw [h.waiting, List.mem_append] at hw
      rcases hw with hw | hw
      · exact ⟨profile, (List.mem_map_of_injective (Option.some_injective _)).mp hw, rfl⟩
      · exact absurd ⟨profile, h.kept_subset hw, rfl⟩ hawaits
  · rintro ⟨profile, hp, rfl⟩
    refine Or.inr ⟨profile, ?_, rfl⟩
    rw [h.waiting]
    exact List.mem_append_left _ (List.mem_map_of_mem hp)

/-- Profiles that are put to wait come ahead of all others; where something waits already, they must not stand in. -/
theorem queues_enqueue {profiles : List Profile} (hexplicit : (∀ profile ∈ profiles, profile.standsIn = false) ∨ p.waiting = []) :
    Queues p (p.enqueue profiles) (profiles.filter (!p.knows ·.name)) p.waiting where
  waiting := rfl
  kept := .inl rfl
  unknown _ hp := (Bool.not_eq_true' _).mp (List.mem_filter.mp hp).2
  explicit := hexplicit.imp_left fun h profile hp => h profile (List.mem_filter.mp hp).1
  processed := rfl
  history := rfl

/-- Profiles that are included go ahead of those that wait, but for those that are known. -/
theorem queues_include (hexplicit : ∀ profile ∈ set.profiles, profile.standsIn = false) :
    Queues p (p.includeProfiles set) (set.profiles.filter (!p.knows ·.name)) p.waiting := by
  have henqueue := @queues_enqueue p set.profiles (.inl hexplicit)
  rw [includeProfiles_eq]
  exact ⟨henqueue.waiting, henqueue.kept, henqueue.unknown, henqueue.explicit, rfl, rfl⟩

/-- A request that is granted puts its profiles to wait and takes those away that stand in; any other does neither. -/
theorem queues_request (hexplicit : ∀ profile ∈ set.profiles, profile.standsIn = false) :
    ∃ new kept, Queues p (p.request set) new kept ∧ (new = [] ∨ new = set.profiles.filter (!p.knows ·.name)) := by
  rcases granted_or_ignored p set with ⟨hne, ha⟩ | hignored
  · refine ⟨set.profiles.filter (!p.knows ·.name), p.waiting.filter (!standsIn ·), ?_, .inr rfl⟩
    have hall : ∀ profile ∈ set.profiles.filter (!p.knows ·.name), profile.standsIn = false :=
      fun profile hp => hexplicit profile (List.mem_filter.mp hp).1
    have hnew : ((set.profiles.filter (!p.knows ·.name)).map some).filter (!standsIn ·) =
        (set.profiles.filter (!p.knows ·.name)).map some := by
      refine List.filter_eq_self.mpr fun pass hpass => ?_
      obtain ⟨profile, hp, rfl⟩ := List.mem_map.mp hpass
      simpa [standsIn] using hall profile hp
    rw [request_of_granted hne ha]
    refine ⟨?_, .inr rfl, fun profile hp => (Bool.not_eq_true' _).mp (List.mem_filter.mp hp).2, .inl hall, rfl, rfl⟩
    simp only [enqueue, List.filter_append]
    rw [hnew]
  · obtain ⟨log, hrequest⟩ := @request_of_ignored p set hignored
    rw [hrequest]
    have hnone : ∀ {P : Profile → Prop}, ∀ profile ∈ ([] : List Profile), P profile := fun _ hp => absurd hp List.not_mem_nil
    exact ⟨[], p.waiting, ⟨rfl, .inl rfl, hnone, .inl hnone, rfl, rfl⟩, .inl rfl⟩

/-- The names of a list that come to be known are those of the new profiles, if these are the ones in it that were not known. -/
theorem Queues.entrants_eq (h : Queues p q new kept) (hnew : new = [] ∨ new = set.profiles.filter (!p.knows ·.name)) :
    entrants p q set.names = new.map (·.name) := by
  rcases hnew with rfl | rfl
  · refine List.filter_eq_nil_iff.mpr fun name _ hname => ?_
    rw [Bool.and_eq_true, Bool.not_eq_true'] at hname
    obtain ⟨profile, hp, -⟩ := (h.knows_iff hname.1).mp hname.2
    cases hp
  · have hsame : ∀ name ∈ set.names, (!p.knows name && q.knows name) = !p.knows name := by
      intro name hname
      cases hknows : p.knows name with
      | true => rfl
      | false =>
        obtain ⟨profile, hp, rfl⟩ := List.mem_map.mp hname
        rw [(h.knows_iff hknows).mpr ⟨profile, List.mem_filter.mpr ⟨hp, by rw [hknows]; rfl⟩, rfl⟩]
        rfl
    rw [entrants, List.filter_congr hsame, ProfileSet.names, List.filter_map]
    rfl

/-- What a shift does to the passes that wait: some profiles come to wait, or nothing changes about them, or the next one is taken away
to be skipped or to begin. -/
inductive Effect : Moment → List String → Moment → Prop where
  /-- Some profiles come to wait; if a list asks for them, they are those in it that come to be known, and none of them stands in. -/
  | queued {stage : Stage} {p q : Progress} {names : List String} {new : List Profile} {kept : List (Option Profile)} :
      Queues p q new kept →
      names = [] ∨ entrants p q names = new.map (·.name) ∧ names.Nodup ∧ (∀ profile ∈ new, profile.standsIn = false) →
      Effect ⟨stage, p⟩ names ⟨stage, q⟩
  /-- The same passes wait, and no pass for a profile begins or ends. -/
  | aside {m m' : Moment} {more : List (Option String)} : m'.progress.waiting = m.progress.waiting →
      m'.progress.processed = m.progress.processed → m'.begun = m.begun ++ more → m'.current = m.current ∨ m'.current = none →
      Effect m [] m'
  /-- The pass for a profile is over. -/
  | finished {p : Progress} {profile : Profile} :
      Effect ⟨.within (some profile.name), p⟩ [] ⟨.between, { p with processed := p.processed.insert profile }⟩
  /-- The next profile is skipped. -/
  | skipped {p : Progress} {profile : Profile} {rest : List (Option Profile)} : p.waiting = some profile :: rest →
      p.processed.contains profile.name = true → Effect ⟨.between, p⟩ [] ⟨.between, { p with waiting := rest }⟩
  /-- The pass for the next profile begins. -/
  | begun {p : Progress} {profile : Profile} {rest : List (Option Profile)} : p.waiting = some profile :: rest →
      p.processed.contains profile.name = false → Effect ⟨.between, p⟩ [] ⟨.within (some profile.name), beginning p profile rest⟩

variable {m m' : Moment} {names : List String}

/-- When the pass for a profile begins, it is the last one that has begun. -/
theorem begun_beginning (p : Progress) (profile : Profile) (rest : List (Option Profile)) :
    Moment.begun ⟨.within (some profile.name), beginning p profile rest⟩ = Moment.begun ⟨.between, p⟩ ++ [some profile.name] :=
  Milestone.passes_append_pass _ _

/-- A request for a list of profiles puts some of them to wait, or has no effect. -/
theorem effect_request {stage : Stage} (hexplicit : ∀ profile ∈ set.profiles, profile.standsIn = false) (hnodup : set.names.Nodup) :
    Effect ⟨stage, p⟩ set.names ⟨stage, p.request set⟩ := by
  obtain ⟨new, kept, hqueues, hnew⟩ := @queues_request p set hexplicit
  refine .queued hqueues (.inr ⟨hqueues.entrants_eq hnew, hnodup, fun profile hp => hexplicit profile ?_⟩)
  rcases hnew with rfl | rfl
  · cases hp
  · exact (List.mem_filter.mp hp).1

/-- Neither the profiles that an environment includes nor those that it declares stand in. -/
theorem explicit_extend {included declared : ProfileSet}
    (hincluded : boundProfiles env Key.includedProfiles (env.get? Key.includedProfiles) = .ok included)
    (hdeclared : boundProfiles env Key.activeProfiles (env.get? Key.activeProfiles) = .ok declared) :
    ∀ profile ∈ (included.extend declared.profiles).profiles, profile.standsIn = false := fun profile hp =>
  (ProfileSet.mem_extend hp).elim (standsIn_of_boundProfiles hincluded profile) (standsIn_of_boundProfiles hdeclared profile)

/-- What a shift does to the passes that wait. -/
theorem Shift.effect (h : Shift plan resources env m names m') : Effect m names m' := by
  cases h with
  | asked hincluded hdeclared =>
    exact effect_request (explicit_extend hincluded hdeclared) (ProfileSet.nodup_extend (nodup_of_boundProfiles hincluded))
  | @others p names _ =>
    refine .queued (queues_enqueue (.inl fun profile hp => ?_)) (.inl rfl)
    obtain ⟨name, -, rfl⟩ := List.mem_map.mp hp
    rfl
  | standIns hw => exact .queued (queues_enqueue (.inr hw)) (.inl rfl)
  | opened => exact .aside rfl rfl (Milestone.passes_append_pass _ _) (.inr rfl)
  | noted => exact .aside rfl rfl (List.append_nil _).symm (.inl rfl)
  | lookedUp => exact .aside rfl rfl (List.append_nil _).symm (.inl rfl)
  | activated _ hset => exact effect_request (standsIn_of_boundProfiles hset) (nodup_of_boundProfiles hset)
  | @included profile p layer set _ hset =>
    have hexplicit := standsIn_of_boundProfiles hset
    have hqueues := @queues_include p set hexplicit
    exact .queued hqueues (.inr ⟨hqueues.entrants_eq (.inr rfl), nodup_of_boundProfiles hset,
      fun profile hp => hexplicit profile (List.mem_filter.mp hp).1⟩)
  | read => exact .aside rfl rfl ((Milestone.passes_append_layer _ _).trans (List.append_nil _).symm) (.inl rfl)
  | closed => exact .aside rfl rfl (List.append_nil _).symm (.inr rfl)
  | finished => exact .finished
  | skipped hw hold => exact .skipped hw hold
  | begun hw hnew => exact .begun hw hnew

/-- Passes that have begun stay so. -/
theorem Effect.begun_eq (h : Effect m names m') : ∃ more, m'.begun = m.begun ++ more := by
  cases h with
  | queued hqueues _ => exact ⟨[], by rw [Moment.begun, hqueues.history, List.append_nil]; rfl⟩
  | aside _ _ hbegun _ => exact ⟨_, hbegun⟩
  | finished => exact ⟨[], (List.append_nil _).symm⟩
  | skipped _ _ => exact ⟨[], (List.append_nil _).symm⟩
  | begun _ _ => exact ⟨_, begun_beginning _ _ _⟩

/-- A course only adds to the passes that have begun. -/
theorem Course.begun_eq (h : Course plan resources env m m') : ∃ more, m'.begun = m.begun ++ more := by
  induction h with
  | refl => exact ⟨[], (List.append_nil _).symm⟩
  | tail _ hshift ih =>
    obtain ⟨names, hshift⟩ := hshift
    obtain ⟨more, hmore⟩ := ih
    obtain ⟨last, hlast⟩ := hshift.effect.begun_eq
    exact ⟨more ++ last, by rw [hlast, hmore, List.append_assoc]⟩

/-- The passes of the profiles that count as processed have begun, and so has the one that is going on. -/
structure Sound (m : Moment) : Prop where
  /-- The passes of the profiles processed have begun. -/
  processed : ∀ name ∈ m.progress.processed.names, some name ∈ m.begun
  /-- The one that is going on has begun. -/
  current : ∀ name, m.current = some name → some name ∈ m.begun

/-- At the outset nothing has begun. -/
theorem sound_outset : Sound (outset env) := ⟨nofun, nofun⟩

/-- An effect leaves a moment sound. -/
theorem Sound.effect (hsound : Sound m) (h : Effect m names m') : Sound m' := by
  cases h with
  | @queued stage p q _ _ _ hqueues _ =>
    have hbegun : Moment.begun ⟨stage, q⟩ = Moment.begun ⟨stage, p⟩ := congrArg Milestone.passes hqueues.history
    refine ⟨fun name hname => ?_, fun name hname => ?_⟩
    · rw [hbegun]
      exact hsound.processed name (hqueues.processed ▸ hname)
    · rw [hbegun]
      exact hsound.current name hname
  | aside hwaiting hprocessed hbegun hcurrent =>
    refine ⟨fun name hname => ?_, fun name hname => ?_⟩
    · rw [hbegun]
      exact List.mem_append_left _ (hsound.processed name (hprocessed ▸ hname))
    · rcases hcurrent with hsame | hnone
      · rw [hbegun]
        exact List.mem_append_left _ (hsound.current name (hsame ▸ hname))
      · cases hnone.symm.trans hname
  | finished =>
    refine ⟨fun name hname => ?_, nofun⟩
    rcases ProfileSet.mem_names_insert.mp hname with hname | rfl
    · exact hsound.processed name hname
    · exact hsound.current _ rfl
  | skipped _ _ => exact ⟨hsound.processed, nofun⟩
  | begun _ _ =>
    refine ⟨fun name hname => ?_, fun name hname => ?_⟩
    · rw [begun_beginning]
      exact List.mem_append_left _ (hsound.processed name hname)
    · obtain rfl := Option.some.inj hname
      rw [begun_beginning]
      exact List.mem_append_right _ (List.mem_singleton_self _)

/-- So does a course. -/
theorem Sound.course (hsound : Sound m) (h : Course plan resources env m m') : Sound m' := by
  induction h with
  | refl => exact hsound
  | tail _ hshift ih =>
    obtain ⟨names, hshift⟩ := hshift
    exact ih.effect hshift.effect

end Effects

/-! ## The course of a search that came to its end -/

section Courses

variable {p q start finish : Progress} {profile : Option String} {m : Moment}

/-- A move is made by shifts within the pass; accepting a layer takes three. -/
theorem course_of_move (h : Move plan resources p q) : Course plan resources env ⟨.within profile, p⟩ ⟨.within profile, q⟩ := by
  cases h with
  | noted => exact .single ⟨_, .noted⟩
  | lookedUp => exact .single ⟨_, .lookedUp⟩
  | @accepted _ layer hgives haccept =>
    simp only [accept] at haccept
    cases hactive : boundProfiles (scopeOf p.environment layer p.loaded.length) Key.activeProfiles (layer.get? Key.activeProfiles) with
    | error fault => rw [hactive] at haccept; cases haccept
    | ok active =>
      rw [hactive] at haccept
      cases hincluded : boundProfiles (scopeOf p.environment layer p.loaded.length) Key.includedProfiles
          (layer.get? Key.includedProfiles) with
      | error fault => rw [hincluded] at haccept; cases haccept
      | ok included =>
        rw [hincluded] at haccept
        cases haccept
        have hsame : ∀ (r : Progress) key, r.environment = { p.environment with active := r.environment.active } →
            r.history = p.history → boundProfiles (scopeOf r.environment layer r.loaded.length) key (layer.get? key) =
              boundProfiles (scopeOf p.environment layer p.loaded.length) key (layer.get? key) := by
          intro r key henvironment hhistory
          rw [henvironment, loaded, hhistory]
          exact boundProfiles_active (scopeOf p.environment layer p.loaded.length) _ _ _
        have hrequested := hsame _ Key.includedProfiles (@environment_request p active) history_request
        have htaken := fun key => hsame ((p.request active).includeProfiles included) key
          (by rw [includeProfiles_eq, environment_request]) (by rw [includeProfiles_eq, history_request])
        exact .tail (.tail (.single ⟨_, .activated hgives hactive⟩) ⟨_, .included hgives (hrequested.trans hincluded)⟩)
          ⟨_, .read hgives ((htaken _).trans hactive) ((htaken _).trans hincluded)⟩

/-- The moves within a pass are a course. -/
theorem course_of_moves (h : ReflTransGen (Move plan resources) p q) :
    Course plan resources env ⟨.within profile, p⟩ ⟨.within profile, q⟩ := by
  induction h with
  | refl => exact .refl
  | tail _ hmove ih => exact ih.trans (course_of_move hmove)

/-- A turn behind the pass for no profile is made by shifts. -/
theorem course_of_turn (h : Turn plan resources p q) (hnone : none ∉ p.waiting) :
    Course plan resources env ⟨.between, p⟩ ⟨.between, q⟩ := by
  cases h with
  | unfiltered hw _ => exact absurd (hw ▸ List.mem_cons_self) hnone
  | skipped hw hold => exact .single ⟨_, .skipped hw hold⟩
  | filtered hw hnew hvisits =>
    exact .trans (.head ⟨_, .begun hw hnew⟩ (course_of_moves (moves_of_visits hvisits))) (.single ⟨_, .finished⟩)

/-- Turns behind the pass for no profile are made by shifts. -/
theorem course_of_turns (h : ReflTransGen (Turn plan resources) p q) (horderly : Orderly env none p) :
    Course plan resources env ⟨.between, p⟩ ⟨.between, q⟩ := by
  have hkept := orderly_kept env plan resources
  induction h using ReflTransGen.head_induction_on with
  | refl => exact .refl
  | head hturn _ ih => exact (course_of_turn hturn (hkept.waiting horderly)).trans (ih (hkept.turn hturn horderly))

/-- A search begins with shifts that put the first passes to wait, the one for the lists of the environment first. -/
theorem course_of_start (h : Progress.start env = .ok start) :
    ∃ m seeded, Shift plan resources env (outset env) (env.included ++ env.declared.filter (· ∉ env.included)) m ∧
      Course plan resources env m ⟨.seeding, seeded⟩ ∧ start = { seeded with waiting := none :: seeded.waiting } := by
  simp only [Progress.start] at h
  cases hincluded : boundProfiles env Key.includedProfiles (env.get? Key.includedProfiles) with
  | error fault => rw [hincluded] at h; cases h
  | ok included =>
    rw [hincluded] at h
    cases hdeclared : boundProfiles env Key.activeProfiles (env.get? Key.activeProfiles) with
    | error fault => rw [hdeclared] at h; cases h
    | ok declared =>
      rw [hdeclared] at h
      cases h
      have hincludedNames : env.included = included.names := by rw [Environment.included, boundNames, hincluded]
      have hdeclaredNames : env.declared = declared.names := by rw [Environment.declared, boundNames, hdeclared]
      have hnames : (included.extend declared.profiles).names = env.included ++ env.declared.filter (· ∉ env.included) := by
        rw [hincludedNames, hdeclaredNames]
        exact ProfileSet.names_extend (nodup_of_boundProfiles hdeclared)
      have hasked : asked env included declared = ((outset env).progress.request (included.extend declared.profiles)).enqueue
          ((((outset env).progress.request (included.extend declared.profiles)).environment.active.filter
            (!(included.extend declared.profiles).contains ·)).map fun name => { name }) := by
        simp only [asked, Environment.foldl_activate, outset, hdeclaredNames, ProfileSet.names]
      have hothers : Course plan resources env ⟨.seeding, (outset env).progress.request (included.extend declared.profiles)⟩
          ⟨.seeding, asked env included declared⟩ := by
        rw [hasked]
        exact .single ⟨_, .others (List.filter_subset_self _)⟩
      rw [← hnames]
      refine ⟨_, if (asked env included declared).waiting.isEmpty then _ else asked env included declared,
        .asked hincluded hdeclared, hothers.trans ?_, rfl⟩
      split
      · rename_i hempty
        exact .single ⟨_, .standIns (List.isEmpty_iff.mp hempty)⟩
      · exact .refl

/-- A search that came to its end was led there by shifts, of which the first one asks for the profiles that the environment includes and
declares. -/
theorem Completed.course {discovery : Discovery} (h : Completed discovery resources env plan start finish) :
    ∃ m, Shift plan resources env (outset env) (env.included ++ env.declared.filter (· ∉ env.included)) m ∧
      Course plan resources env m ⟨.between, finish⟩ := by
  obtain ⟨m, seeded, hshift, hseeded, rfl⟩ := @course_of_start plan resources env start h.start_eq
  refine ⟨m, hshift, hseeded.trans (.head ⟨_, .opened⟩ ?_)⟩
  obtain ⟨rest, hw, horderly⟩ := orderly_start h.start_eq
  cases hw
  rcases h.turns.cases_head with rfl | ⟨p, hturn, hturns⟩
  · cases h.done
  · cases hturn with
    | unfiltered hw' hvisits =>
      cases hw'
      have hrest := course_of_turns hturns ((orderly_kept env plan resources).visits hvisits horderly)
      exact ((course_of_moves (moves_of_visits hvisits)).tail ⟨_, .closed⟩).trans hrest
    | skipped hw' _ => cases hw'
    | filtered hw' _ _ => cases hw'

/-- Where a search sets out no profile is known, so all those come to be known that the environment includes or declares. -/
theorem entrants_outset {names : List String} (h : Shift plan resources env (outset env) names m) :
    entrants (outset env).progress m.progress names = names := by
  unfold outset at h
  cases h with
  | @asked _ included declared hincluded hdeclared =>
    refine List.filter_eq_self.mpr fun name hname => ?_
    obtain ⟨profile, hp, rfl⟩ := List.mem_map.mp hname
    have hunknown : (outset env).progress.knows profile.name = false :=
      knows_eq_false_iff.mpr ⟨List.not_mem_nil, fun ⟨_, hw, _⟩ => List.not_mem_nil hw⟩
    rw [hunknown, knows_iff.mpr (.inr ⟨profile, (mem_waiting_request_of_fresh (explicit_extend hincluded hdeclared)).mpr
      ⟨profile, hp, rfl⟩, rfl⟩)]
    rfl
  | others | standIns | opened => rfl

end Courses

end Discovery

end Ignition
