import Ignition.Proofs.Config.Expansion
import Ignition.Proofs.Discovery.Requests
import Ignition.Proofs.Discovery.Steps

/-!
# Searches under limits

A search is run under two limits: on the depth of expansions and on the number of passes. Where neither of them brought its outcome
about, higher limits change nothing (`within_of_le`); so a search without limits has this outcome if there are any limits that do not
cut it short, and goes on for ever otherwise (`Ends`).
-/

namespace Ignition

/-! ## Faults of limits -/

/-- Whether the limit on the depth of expansions is at fault. -/
def ConfigFault.isTooDeep : ConfigFault → Bool
  | .placeholder error => error.isTooDeep
  | _ => false

/-- Whether the limit on the number of passes is at fault. -/
def ConfigFault.isTooManyPasses : ConfigFault → Bool
  | .tooManyPasses _ => true
  | _ => false

/-- Whether the limit on the depth of expansions is at fault. -/
def ConfigError.isTooDeep (error : ConfigError) : Bool :=
  error.fault.isTooDeep

/-- Whether the limit on the number of passes is at fault. -/
def ConfigError.isTooManyPasses (error : ConfigError) : Bool :=
  error.fault.isTooManyPasses

/-- Whether a limit is at fault. -/
def ConfigError.isLimit (error : ConfigError) : Bool :=
  error.isTooDeep || error.isTooManyPasses

namespace Progress

/-- The progress with another limit on the depth of expansions. -/
def deepen (progress : Progress) (depth : Nat) : Progress :=
  { progress with environment := progress.environment.deepen depth }

section Deepen

variable {p q : Progress} {set active included : ProfileSet} {layer : Layer} {env scope : Environment} {key : String}
  {value : Option String} {depth : Nat} {kind : ConfigFault → Bool}

/-! ## Lists and layers -/

/-- A list that the limit on the depth of expansions does not end has a finished expansion. -/
theorem finished_of_boundProfiles {text : String} (h : Avoids ConfigFault.isTooDeep (boundProfiles scope key (some text))) :
    Environment.Finished ((scope.toward (.list key)).expand text) := by
  intro error herror
  simp only [boundProfiles, herror] at h
  exact h _ rfl

/-- More depth changes nothing about a list that is read in it. -/
theorem boundProfiles_deepen (hle : scope.nesting ≤ depth) (h : Avoids ConfigFault.isTooDeep (boundProfiles scope key value)) :
    boundProfiles (scope.deepen depth) key value = boundProfiles scope key value := by
  cases value with
  | none => rfl
  | some text =>
    have hexpand : ((scope.deepen depth).toward (.list key)).expand text = (scope.toward (.list key)).expand text :=
      @Environment.expand_deepen (scope.toward (.list key)) depth text hle (finished_of_boundProfiles h)
    simp only [boundProfiles, hexpand]

/-- A list avoids the faults that its expansion avoids, if they are no faults of profiles. -/
theorem boundProfiles_avoids (hprofile : ∀ error, kind (.profile error) = false)
    (h : ∀ text, value = some text → Avoids (fun error => kind (.placeholder error)) ((scope.toward (.list key)).expand text)) :
    Avoids kind (boundProfiles scope key value) := by
  intro fault hfault
  cases value with
  | none => cases hfault
  | some text =>
    simp only [boundProfiles] at hfault
    split at hfault
    · rename_i error herror
      cases hfault
      exact h text rfl error herror
    · rename_i expanded _
      cases hparse : ProfileSet.parse key expanded with
      | error error =>
        rw [hparse] at hfault
        cases hfault
        exact hprofile error
      | ok set => rw [hparse] at hfault; cases hfault

/-- Two lists, read one behind the other. -/
def boundLists (scope : Environment) (get? : String → Option String) (first second : String) :
    Except ConfigFault (ProfileSet × ProfileSet) := do
  let profiles ← boundProfiles scope first (get? first)
  let others ← boundProfiles scope second (get? second)
  return (profiles, others)

/-- A layer is taken with the lists that it has. -/
theorem accept_eq : p.accept layer =
    (boundLists (scopeOf p.environment layer p.loaded.length) layer.get? Key.activeProfiles Key.includedProfiles).map
      fun (active, included) => p.take active included layer := by
  unfold accept boundLists
  simp only
  cases boundProfiles (scopeOf p.environment layer p.loaded.length) Key.activeProfiles (layer.get? Key.activeProfiles) with
  | error fault => rfl
  | ok active =>
    cases boundProfiles (scopeOf p.environment layer p.loaded.length) Key.includedProfiles (layer.get? Key.includedProfiles) <;> rfl

/-- A search begins with the lists that the environment has. -/
theorem start_eq : Progress.start env =
    (boundLists env env.get? Key.includedProfiles Key.activeProfiles).map fun (included, declared) => seed env included declared := by
  unfold Progress.start boundLists
  cases boundProfiles env Key.includedProfiles (env.get? Key.includedProfiles) with
  | error fault => rfl
  | ok included => cases boundProfiles env Key.activeProfiles (env.get? Key.activeProfiles) <;> rfl

/-- More depth changes nothing about lists that are read in it. -/
theorem boundLists_deepen {get? : String → Option String} {first second : String} (hle : scope.nesting ≤ depth)
    (h : Avoids ConfigFault.isTooDeep (boundLists scope get? first second)) :
    boundLists (scope.deepen depth) get? first second = boundLists scope get? first second :=
  h.bind_congr (boundProfiles_deepen hle) fun _ _ hrest => hrest.bind_congr (boundProfiles_deepen hle) fun _ _ _ => rfl

/-- Lists avoid the faults that their expansions avoid. -/
theorem boundLists_avoids {get? : String → Option String} {first second : String} (hprofile : ∀ error, kind (.profile error) = false)
    (h : ∀ key ∈ [first, second], ∀ text, get? key = some text →
      Avoids (fun error => kind (.placeholder error)) ((scope.toward (.list key)).expand text)) :
    Avoids kind (boundLists scope get? first second) :=
  (boundProfiles_avoids hprofile (h first List.mem_cons_self)).bind fun _ =>
    (boundProfiles_avoids hprofile (h second (List.mem_cons_of_mem _ List.mem_cons_self))).bind fun _ => avoids_ok _

/-- Depth plays no part in a request. -/
theorem request_deepen : (p.deepen depth).request set = (p.request set).deepen depth := by
  rcases granted_or_ignored p set with ⟨hne, ha⟩ | hignored
  · have ha' : (p.deepen depth).activated = false := ha
    rw [request_of_granted hne ha, request_of_granted hne ha']
    rfl
  · unfold request
    by_cases hempty : set.profiles.isEmpty = true
    · rw [if_pos hempty, if_pos hempty]
    · have ha : p.activated = true := hignored.resolve_left fun he => hempty (List.isEmpty_iff.mpr he)
      have ha' : (p.deepen depth).activated = true := ha
      rw [if_neg hempty, if_neg hempty, if_pos ha, if_pos ha']
      rfl

/-- Depth plays no part in how a layer is taken. -/
theorem take_deepen : (p.deepen depth).take active included layer = (p.take active included layer).deepen depth := by
  rw [take, request_deepen, take, includeProfiles_eq, includeProfiles_eq]
  rfl

/-- More depth changes nothing about how a layer is accepted in it. -/
theorem accept_deepen (hle : p.environment.nesting ≤ depth) (h : Avoids ConfigFault.isTooDeep (p.accept layer)) :
    (p.deepen depth).accept layer = (p.accept layer).map (·.deepen depth) := by
  rw [accept_eq] at h ⊢
  rw [accept_eq]
  have hlists : boundLists (scopeOf (p.deepen depth).environment layer (p.deepen depth).loaded.length) layer.get? _ _ = _ :=
    @boundLists_deepen (scopeOf p.environment layer p.loaded.length) depth _ _ _ hle (avoids_map_iff.mp h)
  rw [hlists]
  cases boundLists (scopeOf p.environment layer p.loaded.length) layer.get? Key.activeProfiles Key.includedProfiles with
  | error fault => rfl
  | ok lists => exact congrArg Except.ok take_deepen

/-- Accepting a layer avoids the faults that the expansions of its lists avoid. -/
theorem accept_avoids (hprofile : ∀ error, kind (.profile error) = false)
    (h : ∀ key ∈ [Key.activeProfiles, Key.includedProfiles], ∀ text, layer.get? key = some text →
      Avoids (fun error => kind (.placeholder error)) (((scopeOf p.environment layer p.loaded.length).toward (.list key)).expand text)) :
    Avoids kind (p.accept layer) := by
  rw [accept_eq]
  exact avoids_map_iff.mpr (boundLists_avoids hprofile h)

/-- Taking a layer leaves the limit on the depth of expansions. -/
theorem nesting_of_accept (h : p.accept layer = .ok q) : q.environment.nesting = p.environment.nesting := by
  obtain ⟨active, included, rfl⟩ := accept_eq_take h
  rw [environment_take]

/-- The beginning of a search avoids the faults that the expansions of the lists of the environment avoid. -/
theorem start_avoids (hprofile : ∀ error, kind (.profile error) = false)
    (h : ∀ key ∈ [Key.includedProfiles, Key.activeProfiles], ∀ text, env.get? key = some text →
      Avoids (fun error => kind (.placeholder error)) ((env.toward (.list key)).expand text)) :
    Avoids kind (Progress.start env) := by
  rw [start_eq]
  exact avoids_map_iff.mpr (boundLists_avoids hprofile h)

/-- Depth plays no part in what an environment asks for. -/
theorem asked_deepen : asked (env.deepen depth) included active = (asked env included active).deepen depth := by
  have hrequest : ∀ names set, ({ environment := { env.deepen depth with active := names } } : Progress).request set =
      (({ environment := { env with active := names } } : Progress).request set).deepen depth :=
    fun names set => @request_deepen { environment := { env with active := names } } set depth
  simp only [asked, Environment.foldl_activate, hrequest]
  rfl

/-- Depth plays no part in how a search begins with some lists. -/
theorem seed_deepen : seed (env.deepen depth) included active = (seed env included active).deepen depth := by
  unfold seed
  rw [asked_deepen]
  by_cases hw : (asked env included active).waiting.isEmpty = true
  · have hw' : ((asked env included active).deepen depth).waiting.isEmpty = true := hw
    simp only [hw, hw', if_true]
    rfl
  · have hw' : ¬((asked env included active).deepen depth).waiting.isEmpty = true := hw
    simp only [if_neg hw, if_neg hw']
    rfl

/-- The beginning of a search leaves the limit on the depth of expansions. -/
theorem nesting_of_start (h : Progress.start env = .ok p) : p.environment.nesting = env.nesting := by
  obtain ⟨included, declared, -, -, -, -, rfl⟩ := start_eq_ok h
  have hseed := congrArg (·.environment.nesting) (@seed_eq included declared env [])
  simp only at hseed
  rw [hseed, environment_asked]

/-- More depth changes nothing about how a search begins in it. -/
theorem start_deepen (hle : env.nesting ≤ depth) (h : Avoids ConfigFault.isTooDeep (Progress.start env)) :
    Progress.start (env.deepen depth) = (Progress.start env).map (·.deepen depth) := by
  rw [start_eq] at h ⊢
  rw [start_eq]
  have hlists : boundLists (env.deepen depth) (env.deepen depth).get? Key.includedProfiles Key.activeProfiles =
      boundLists env env.get? Key.includedProfiles Key.activeProfiles := boundLists_deepen hle (avoids_map_iff.mp h)
  rw [hlists]
  cases boundLists env env.get? Key.includedProfiles Key.activeProfiles with
  | error fault => rfl
  | ok lists => exact congrArg Except.ok seed_deepen

end Deepen

end Progress

/-- Not both limits are at fault. -/
theorem isTooManyPasses_of_isTooDeep {error : ConfigError} (h : error.isTooDeep = true) : error.isTooManyPasses = false := by
  obtain ⟨fault, causes⟩ := error
  cases fault with
  | tooManyPasses limit => cases h
  | _ => rfl

/-- No limit is at fault exactly if neither of the two is. -/
theorem avoids_isLimit_iff {α : Type} {outcome : Except ConfigError α} :
    Avoids ConfigError.isLimit outcome ↔ Avoids ConfigError.isTooDeep outcome ∧ Avoids ConfigError.isTooManyPasses outcome := by
  simp only [Avoids, ConfigError.isLimit, Bool.or_eq_false_iff, imp_and, forall_and]

/-- The outcome with another limit on the depth of expansions. -/
def DiscoveryOutcome.deepen (outcome : DiscoveryOutcome) (depth : Nat) : DiscoveryOutcome :=
  { outcome with environment := outcome.environment.deepen depth }

namespace Discovery

/-! ## Parts of a search -/

/-- A part of a search that leaves the limit on the depth of expansions, and that with more depth does the same unless this limit is at
fault when it fails. -/
structure Deepens {α : Type} (part : Searching α) : Prop where
  /-- The limit stays. -/
  nesting : ∀ p, (part.run.run p).2.environment.nesting = p.environment.nesting
  /-- With more depth the same is done. -/
  deepen : ∀ {p depth}, p.environment.nesting ≤ depth → Avoids ConfigError.isTooDeep (part.run.run p).1 →
    part.run.run (p.deepen depth) = ((part.run.run p).1, (part.run.run p).2.deepen depth)

section Parts

variable {plan : SearchPlan} {resources : Resources} {α β : Type} {part : Searching α} {next : α → Searching β}

/-- Two parts one behind the other. -/
theorem Deepens.bind (h : Deepens part) (hnext : ∀ a, Deepens (next a)) : Deepens (part >>= next) := by
  constructor
  · intro p
    have hnesting := h.nesting p
    rw [run_bind]
    cases hr : part.run.run p with
    | mk result q =>
      rw [hr] at hnesting
      cases result with
      | error error => exact hnesting
      | ok a => exact ((hnext a).nesting q).trans hnesting
  · intro p depth hle havoids
    have hnesting := h.nesting p
    have hdeepen := @Deepens.deepen _ _ h p depth hle
    rw [run_bind] at havoids ⊢
    rw [run_bind]
    cases hr : part.run.run p with
    | mk result q =>
      rw [hr] at hnesting hdeepen havoids
      cases result with
      | error error => rw [hdeepen (avoids_error_iff.mpr (avoids_error_iff.mp havoids))]
      | ok a =>
        rw [hdeepen (avoids_ok a)]
        exact (hnext a).deepen (hnesting ▸ hle) havoids

/-- An answer by itself needs no depth. -/
theorem Deepens.pure (a : α) : Deepens (Pure.pure a) := ⟨fun _ => rfl, fun _ _ => rfl⟩

/-- Nor does a failure by itself. -/
theorem Deepens.failWith (error : ConfigError) : Deepens (failWith error : Searching α) := ⟨fun _ => rfl, fun _ _ => rfl⟩

/-- A change that depth plays no part in. -/
theorem Deepens.modify {change : Progress → Progress} (h : ∀ p depth, change (p.deepen depth) = (change p).deepen depth)
    (hnesting : ∀ p, (change p).environment.nesting = p.environment.nesting) : Deepens (modify change : Searching Unit) :=
  ⟨hnesting, fun _ _ => congrArg (Prod.mk (Except.ok ())) (h _ _)⟩

/-- Nor does a note. -/
theorem Deepens.note (level : LogLevel) (message : String) (fields : List (String × LogValue)) :
    Deepens (note level message fields) :=
  Deepens.modify (fun _ _ => rfl) fun _ => rfl

/-- A part that is made for all items of a list. -/
theorem Deepens.forM {items : List α} {part : α → Searching Unit} (h : ∀ a, Deepens (part a)) : Deepens (items.forM part) := by
  induction items with
  | nil => exact Deepens.pure ()
  | cons a items ih => exact Deepens.bind (h a) fun _ => ih

/-- Accepting a layer. -/
theorem deepens_accept (layer : Layer) : Deepens (do
    match (← get).accept layer with
    | .ok progress => set progress
    | .error fault => failWith { fault } : Searching Unit) := by
  constructor
  · intro p
    simp only [run_bind, run_get]
    cases haccept : p.accept layer with
    | error fault => rfl
    | ok q => exact Progress.nesting_of_accept haccept
  · intro p depth hle havoids
    have hdeepen := @Progress.accept_deepen p layer depth hle
    simp only [run_bind, run_get] at havoids ⊢
    cases haccept : p.accept layer with
    | error fault =>
      rw [haccept] at hdeepen havoids
      have hfault : fault.isTooDeep = false := havoids { fault } rfl
      rw [hdeepen (avoids_error_iff.mpr hfault)]
      rfl
    | ok q =>
      rw [haccept] at hdeepen
      rw [hdeepen (avoids_ok q)]
      rfl

/-- Reading a resource. -/
theorem deepens_readLayer (resource : Resource) (location extension : String) (wanted : Option String) :
    Deepens (readLayer plan resource location extension wanted) := by
  unfold readLayer
  cases plan.formats.format? extension with
  | none => exact Deepens.pure ()
  | some format =>
    simp only
    cases format.read (layerName location wanted) resource wanted with
    | error cause => exact Deepens.failWith _
    | ok layer =>
      cases layer with
      | none => exact Deepens.note _ _ _
      | some layer => exact Deepens.bind (Deepens.note _ _ _) fun _ => deepens_accept _

/-- Looking up a location. -/
theorem deepens_lookUp (profile : Option String) (location : String) : Deepens (lookUp resources profile location) := by
  unfold lookUp
  refine Deepens.bind (Deepens.modify (fun _ _ => rfl) fun _ => rfl) fun _ => ?_
  cases resources location with
  | ok found =>
    cases found with
    | some resource => exact Deepens.pure _
    | none => exact Deepens.bind (Deepens.note _ _ _) fun _ => Deepens.pure _
  | error cause =>
    cases cause with
    | unsupported unknown => exact Deepens.bind (Deepens.note _ _ _) fun _ => Deepens.pure _
    | read location reason => exact Deepens.failWith _

/-- A visit. -/
theorem deepens_visit (profile : Option String) (aim : Visit) : Deepens (visit plan resources profile aim) := by
  cases aim with
  | file location extension wanted =>
    refine Deepens.bind (deepens_lookUp profile location) fun found => ?_
    cases found with
    | none => exact Deepens.pure ()
    | some resource => exact deepens_readLayer resource location extension wanted
  | again location extension wanted =>
    simp only [visit]
    split
    · exact deepens_readLayer _ location extension wanted
    · exact Deepens.pure ()
  | passBy location => exact Deepens.note _ _ _

/-- A turn. -/
theorem deepens_turn (processed : ProfileSet) (waiting : List (Option Profile)) : Deepens (turn plan resources processed waiting) := by
  cases waiting with
  | nil => exact Deepens.pure ()
  | cons pass rest =>
    cases pass with
    | none =>
      exact Deepens.bind (Deepens.modify (fun _ _ => rfl) fun _ => rfl) fun _ => Deepens.forM fun _ => deepens_visit _ _
    | some profile =>
      simp only [turn]
      split
      · exact Deepens.modify (fun _ _ => rfl) fun _ => rfl
      · exact Deepens.bind (Deepens.modify (fun _ _ => rfl) fun _ => rfl) fun _ =>
          Deepens.bind (Deepens.forM fun _ => deepens_visit _ _) fun _ => Deepens.modify (fun _ _ => rfl) fun _ => rfl

/-! ## The loop -/

section Passes

variable {limit limit' left left' depth : Nat} {p : Progress}

/-- More passes change nothing about a loop that the number of passes did not end. -/
theorem passes_of_le (hle : left ≤ left') (h : Avoids ConfigError.isTooManyPasses ((passes plan resources limit left).run.run p).1) :
    (passes plan resources limit' left').run.run p = (passes plan resources limit left).run.run p := by
  induction left generalizing left' p with
  | zero =>
    rw [run_passes_zero] at h ⊢
    by_cases hw : p.waiting = []
    · cases left' with
      | zero => rw [run_passes_zero, if_pos hw, if_pos hw]
      | succ left' => rw [run_passes_succ, if_pos hw, if_pos hw]
    · rw [if_neg hw] at h
      exact absurd (h _ rfl) Bool.noConfusion
  | succ left ih =>
    obtain ⟨more, rfl⟩ : ∃ more, left' = more + 1 := Nat.exists_eq_succ_of_ne_zero (Nat.ne_zero_of_lt hle)
    rw [run_passes_succ] at h ⊢
    rw [run_passes_succ]
    by_cases hw : p.waiting = []
    · rw [if_pos hw, if_pos hw]
    · rw [if_neg hw] at h ⊢
      rw [if_neg hw]
      rw [run_bind] at h ⊢
      rw [run_bind]
      cases hturn : (turn plan resources p.processed p.waiting).run.run p with
      | mk result q =>
        rw [hturn] at h
        cases result with
        | error error => rfl
        | ok => exact ih (Nat.le_of_succ_le_succ hle) h

/-- Whatever a part of a search fails for, it is not the number of passes. -/
theorem Fails.isTooManyPasses {error : ConfigError} (h : Fails plan resources p error) : error.isTooManyPasses = false := by
  cases h with
  | loading => rfl
  | reading => rfl
  | accepting _ haccept => exact Progress.accept_avoids (fun _ => rfl) (fun _ _ _ _ _ _ => rfl) _ haccept

/-- The loop does the same with more depth, unless the limit on it is at fault. -/
theorem deepens_passes : Deepens (passes plan resources limit left) := by
  induction left with
  | zero =>
    constructor
    · intro p
      rw [run_passes_zero]
      split <;> rfl
    · intro p depth _ _
      rw [run_passes_zero, run_passes_zero]
      by_cases hw : p.waiting = []
      · rw [if_pos hw, if_pos (show (p.deepen depth).waiting = [] from hw)]
      · rw [if_neg hw, if_neg (show (p.deepen depth).waiting ≠ [] from hw)]
  | succ left ih =>
    have hturn : ∀ p : Progress, Deepens (turn plan resources p.processed p.waiting >>= fun _ => passes plan resources limit left) :=
      fun p => (deepens_turn p.processed p.waiting).bind fun _ => ih
    constructor
    · intro p
      rw [run_passes_succ]
      split
      · rfl
      · exact (hturn p).nesting p
    · intro p depth hle havoids
      rw [run_passes_succ] at havoids ⊢
      rw [run_passes_succ]
      by_cases hw : p.waiting = []
      · rw [if_pos hw, if_pos (show (p.deepen depth).waiting = [] from hw)]
      · rw [if_neg hw] at havoids ⊢
        rw [if_neg (show (p.deepen depth).waiting ≠ [] from hw)]
        exact (hturn p).deepen hle havoids

end Passes

end Parts

/-! ## What a search goes by, and what it leaves -/

section Search

variable {discovery : Discovery} {resources : Resources} {env : Environment} {plan : SearchPlan} {start : Progress}
  {depth depth' limit limit' : Nat}

/-- More depth changes nothing about a configured list that is not too deep. -/
theorem configuredList_deepen {key : String} (hle : env.nesting ≤ depth) (h : Avoids ConfigFault.isTooDeep (configuredList env key)) :
    configuredList (env.deepen depth) key = configuredList env key := by
  have hget : (env.deepen depth).get? key = env.get? key := rfl
  unfold configuredList at h ⊢
  rw [hget]
  cases hvalue : env.get? key with
  | none => rfl
  | some text =>
    have hexpand : ((env.deepen depth).toward (.list key)).expand text = (env.toward (.list key)).expand text := by
      refine @Environment.expand_deepen (env.toward (.list key)) depth text hle fun error herror => ?_
      simp only [hvalue, herror] at h
      exact h _ rfl
    simp only [hexpand]

/-- A plan avoids the faults that the expansions of the lists it is made of avoid. -/
theorem plan_avoids {kind : ConfigFault → Bool}
    (h : ∀ key ∈ [Key.searchLocations, Key.searchNames], ∀ text, env.get? key = some text →
      Avoids (fun error => kind (.placeholder error)) ((env.toward (.list key)).expand text)) :
    Avoids kind (discovery.plan env) := by
  have hlist : ∀ key ∈ [Key.searchLocations, Key.searchNames], Avoids kind (configuredList env key) := by
    intro key hkey fault hfault
    unfold configuredList at hfault
    split at hfault
    · cases hfault
    · rename_i text hvalue
      split at hfault
      · cases hfault
      · rename_i error herror
        cases hfault
        exact h key hkey text hvalue error herror
  have hlocations : Avoids kind (discovery.searchLocations env) :=
    (hlist _ List.mem_cons_self).bind fun _ => avoids_ok _
  have hnames : Avoids kind (discovery.searchNames env) :=
    (hlist _ (List.mem_cons_of_mem _ List.mem_cons_self)).bind fun _ => avoids_ok _
  exact hlocations.bind fun _ => hnames.bind fun _ => avoids_ok _

/-- More depth changes nothing about what a search goes by. -/
theorem plan_deepen (hle : env.nesting ≤ depth) (h : Avoids ConfigFault.isTooDeep (discovery.plan env)) :
    discovery.plan (env.deepen depth) = discovery.plan env := by
  have hlocations : Avoids ConfigFault.isTooDeep (discovery.searchLocations env) →
      discovery.searchLocations (env.deepen depth) = discovery.searchLocations env := fun h =>
    h.bind_congr (configuredList_deepen hle) fun _ _ _ => rfl
  have hnames : Avoids ConfigFault.isTooDeep (discovery.searchNames env) →
      discovery.searchNames (env.deepen depth) = discovery.searchNames env := fun h =>
    h.bind_congr (configuredList_deepen hle) fun _ _ _ => rfl
  exact h.bind_congr hlocations fun _ _ hrest => hrest.bind_congr hnames fun _ _ _ => rfl

/-- Depth plays no part in where layers go. -/
theorem withLoaded_deepen (loaded : List Layer) : withLoaded (env.deepen depth) loaded = (withLoaded env loaded).deepen depth := by
  have hplace : ∀ hasDefaults env layer, place hasDefaults (env.deepen depth) layer = (place hasDefaults env layer).deepen depth := by
    intro hasDefaults env layer
    have hhas : (env.deepen depth).hasLayer LayerName.defaults = env.hasLayer LayerName.defaults := rfl
    cases hasDefaults with
    | false => rfl
    | true =>
      simp only [place, if_true, Environment.addBefore?, hhas]
      split <;> rfl
  exact List.foldl_hom (Environment.deepen · depth) (hplace _)

/-- The place of the layer of last resort has nothing to do with depth. -/
theorem withDefaultsLast_deepen : withDefaultsLast (env.deepen depth) = (withDefaultsLast env).deepen depth := by
  have hlayer : (env.deepen depth).layer? LayerName.defaults = env.layer? LayerName.defaults := rfl
  unfold withDefaultsLast
  rw [hlayer]
  split <;> rfl

/-- The outcome of a search whose loop ended in some way. -/
def conclude : Except ConfigError Unit × Progress → DiscoveryOutcome
  | (.error error, progress) =>
    { result := .error error
      environment := progress.environment
      history := progress.history
      probed := progress.probed
      log := progress.log }
  | (.ok (), progress) =>
    { result := .ok { loaded := progress.loaded.map (·.name), processed := progress.processed.names }
      environment := withDefaultsLast (withLoaded progress.environment progress.loaded)
      history := progress.history
      probed := progress.probed
      log := progress.log }

/-- Depth plays no part in what a loop leaves. -/
theorem conclude_deepen {result : Except ConfigError Unit} {finish : Progress} :
    conclude (result, finish.deepen depth) = (conclude (result, finish)).deepen depth := by
  cases result with
  | error error => rfl
  | ok =>
    have hlayers : withDefaultsLast (withLoaded (finish.environment.deepen depth) finish.loaded) =
        (withDefaultsLast (withLoaded finish.environment finish.loaded)).deepen depth := by
      rw [withLoaded_deepen, withDefaultsLast_deepen]
    exact congrArg (fun environment => { (conclude (.ok (), finish)) with environment }) hlayers

/-- A search avoids the faults that its passes avoid. -/
theorem avoids_conclude_iff {kind : ConfigError → Bool} {outcome : Except ConfigError Unit × Progress} :
    Avoids kind (conclude outcome).result ↔ Avoids kind outcome.1 := by
  obtain ⟨result, q⟩ := outcome
  cases result with
  | error error => exact avoids_error_iff.trans avoids_error_iff.symm
  | ok => exact iff_of_true (avoids_ok _) (avoids_ok _)

/-! ## Searches under limits -/

/-- A search under a limit on the depth of expansions and one on the number of passes. -/
def within (discovery : Discovery) (depth limit : Nat) (resources : Resources) (env : Environment) : DiscoveryOutcome :=
  ({ discovery with passLimit := limit } : Discovery).run resources (env.deepen depth)

/-- A search fails that finds no plan. -/
theorem within_of_plan_error {fault : ConfigFault} (hplan : discovery.plan (env.deepen depth) = .error fault) :
    discovery.within depth limit resources env = { result := .error { fault }, environment := env.deepen depth } := by
  have hplan' : ({ discovery with passLimit := limit } : Discovery).plan (env.deepen depth) = .error fault := hplan
  simp only [within, run, hplan']

/-- A search fails that does not find what it begins with. -/
theorem within_of_start_error {fault : ConfigFault} (hplan : discovery.plan (env.deepen depth) = .ok plan)
    (hstart : Progress.start (env.deepen depth) = .error fault) :
    discovery.within depth limit resources env = { result := .error { fault }, environment := env.deepen depth } := by
  have hplan' : ({ discovery with passLimit := limit } : Discovery).plan (env.deepen depth) = .ok plan := hplan
  simp only [within, run, hplan', hstart]

/-- A search that begins ends as its loop does. -/
theorem within_of_start (hplan : discovery.plan (env.deepen depth) = .ok plan)
    (hstart : Progress.start (env.deepen depth) = .ok start) :
    discovery.within depth limit resources env = conclude ((passes plan resources limit limit).run.run start) := by
  have hplan' : ({ discovery with passLimit := limit } : Discovery).plan (env.deepen depth) = .ok plan := hplan
  simp only [within, run, hplan', hstart]
  cases (passes plan resources limit limit).run.run start with
  | mk result q => cases result <;> rfl

/-- More passes change nothing about a search that the number of passes did not end. -/
theorem within_of_limit_le (hle : limit ≤ limit')
    (h : Avoids ConfigError.isTooManyPasses (discovery.within depth limit resources env).result) :
    discovery.within depth limit' resources env = discovery.within depth limit resources env := by
  cases hplan : discovery.plan (env.deepen depth) with
  | error fault => rw [within_of_plan_error hplan, within_of_plan_error hplan]
  | ok plan =>
    cases hstart : Progress.start (env.deepen depth) with
    | error fault => rw [within_of_start_error hplan hstart, within_of_start_error hplan hstart]
    | ok start =>
      rw [within_of_start hplan hstart, avoids_conclude_iff] at h
      rw [within_of_start hplan hstart, within_of_start hplan hstart, passes_of_le hle h]

/-- More depth changes nothing about a search that the limit on the depth of expansions did not end. -/
theorem within_of_depth_le (hle : depth ≤ depth')
    (h : Avoids ConfigError.isTooDeep (discovery.within depth limit resources env).result) :
    discovery.within depth' limit resources env = (discovery.within depth limit resources env).deepen depth' := by
  have hplan' : Avoids ConfigFault.isTooDeep (discovery.plan (env.deepen depth)) →
      discovery.plan (env.deepen depth') = discovery.plan (env.deepen depth) := @plan_deepen discovery (env.deepen depth) depth' hle
  have hstart' : Avoids ConfigFault.isTooDeep (Progress.start (env.deepen depth)) →
      Progress.start (env.deepen depth') = (Progress.start (env.deepen depth)).map (·.deepen depth') :=
    @Progress.start_deepen (env.deepen depth) depth' hle
  cases hplan : discovery.plan (env.deepen depth) with
  | error fault =>
    rw [within_of_plan_error hplan] at h ⊢
    have hfault : fault.isTooDeep = false := h { fault } rfl
    rw [hplan] at hplan'
    rw [within_of_plan_error (hplan' (avoids_error_iff.mpr hfault))]
    rfl
  | ok plan =>
    rw [hplan] at hplan'
    cases hstart : Progress.start (env.deepen depth) with
    | error fault =>
      rw [within_of_start_error hplan hstart] at h ⊢
      have hfault : fault.isTooDeep = false := h { fault } rfl
      rw [hstart] at hstart'
      rw [within_of_start_error (hplan' (avoids_ok plan)) (hstart' (avoids_error_iff.mpr hfault))]
      rfl
    | ok start =>
      rw [within_of_start hplan hstart, avoids_conclude_iff] at h
      rw [hstart] at hstart'
      have hnesting : start.environment.nesting ≤ depth' := by
        rw [Progress.nesting_of_start hstart]
        exact hle
      rw [within_of_start hplan hstart, within_of_start (hplan' (avoids_ok plan)) (hstart' (avoids_ok start)),
        deepens_passes.deepen hnesting h]
      exact conclude_deepen

/-- Higher limits change nothing about a search that no limit ended. -/
theorem within_of_le (hdepth : depth ≤ depth') (hlimit : limit ≤ limit')
    (h : Avoids ConfigError.isLimit (discovery.within depth limit resources env).result) :
    discovery.within depth' limit' resources env = (discovery.within depth limit resources env).deepen depth' := by
  obtain ⟨hdeep, hpasses⟩ := avoids_isLimit_iff.mp h
  have hmore := within_of_limit_le hlimit hpasses
  rw [← hmore] at hdeep ⊢
  exact within_of_depth_le hdepth hdeep

/-- A search that ends if there are no limits: from some limits on its outcome is the same, and no limit is at fault. -/
def Ends (discovery : Discovery) (resources : Resources) (env : Environment) : Prop :=
  ∃ outcome : DiscoveryOutcome, Avoids ConfigError.isLimit outcome.result ∧
    ∃ depth limit, ∀ depth' limit', depth ≤ depth' → limit ≤ limit' →
      discovery.within depth' limit' resources env = outcome.deepen depth'

/-- A search ends if there are any limits that do not end it. -/
theorem ends_iff_exists : discovery.Ends resources env ↔
    ∃ depth limit, Avoids ConfigError.isLimit (discovery.within depth limit resources env).result := by
  constructor
  · rintro ⟨outcome, havoids, depth, limit, h⟩
    refine ⟨depth, limit, ?_⟩
    rw [h depth limit (Nat.le_refl _) (Nat.le_refl _)]
    exact havoids
  · rintro ⟨depth, limit, havoids⟩
    exact ⟨_, havoids, depth, limit, fun depth' limit' hdepth hlimit => within_of_le hdepth hlimit havoids⟩

end Search

end Discovery

end Ignition
