import Ignition.Proofs.Discovery.Failures

/-!
# What a search does not look up

Which locations a search looks up depends on what it found at others before. Even so, two searches that find the same at each location
that the first one looks up are the same but for what they note (`run_of_found_eq`), and a location of a kind that is not understood
counts as one where nothing is. The two run side by side: as far as they have come they have looked up the same locations, so they make
the same next visit, and what it looks up belongs to what the first search looks up. Only a file that is read again is not looked up for
that; but it was looked up before in the same pass.
-/

namespace Ignition

/-- What is found at a location: nothing if it is of a kind that is not understood. -/
def Resources.found (resources : Resources) (location : String) : Except ResourceError (Option Resource) :=
  match resources location with
  | .error (.unsupported _) => .ok none
  | answer => answer

namespace Progress

variable {p : Progress} {log : List LogEvent}

/-- A request does not depend on what was noted. -/
theorem request_withLog (set : ProfileSet) :
    ∃ more, ({ p with log } : Progress).request set = { p.request set with log := more } := by
  unfold request
  split
  · exact ⟨log, rfl⟩
  · split
    · exact ⟨_, rfl⟩
    · exact ⟨log, rfl⟩

/-- Neither does accepting a layer. -/
theorem accept_withLog (layer : Layer) :
    ∃ more, ({ p with log } : Progress).accept layer = (p.accept layer).map ({ · with log := more }) := by
  have hloaded : ({ p with log } : Progress).loaded = p.loaded := rfl
  simp only [accept, hloaded]
  cases boundProfiles (scopeOf p.environment layer p.loaded.length) Key.activeProfiles (layer.get? Key.activeProfiles) with
  | error fault => exact ⟨log, rfl⟩
  | ok active =>
    cases boundProfiles (scopeOf p.environment layer p.loaded.length) Key.includedProfiles (layer.get? Key.includedProfiles) with
    | error fault => exact ⟨log, rfl⟩
    | ok included =>
      obtain ⟨more, hrequest⟩ := @request_withLog p log active
      refine ⟨more, congrArg Except.ok ?_⟩
      rw [take, hrequest]
      rfl

end Progress

namespace Discovery

open Relation (ReflTransGen)

variable {α β : Type}

/-! ## Outcomes that are alike -/

/-- Two outcomes of a part of a search that differ at most in what was noted. -/
structure Alike (first second : Except ConfigError α × Progress) : Prop where
  /-- The results are the same. -/
  result : second.1 = first.1
  /-- So is the progress, but for what was noted. -/
  progress : ∃ log, second.2 = { first.2 with log }

/-- Two parts of a search that do the same wherever they are made, whatever was noted. -/
def Agree (part other : Searching α) : Prop :=
  ∀ (p : Progress) (log : List LogEvent), Alike (part.run.run p) (other.run.run { p with log })

/-- Parts behind outcomes that are alike have outcomes that are alike, if they have where the first one succeeded. -/
theorem Alike.bind {part other : Searching α} {next following : α → Searching β} {p p' : Progress}
    (h : Alike (part.run.run p) (other.run.run p'))
    (hnext : ∀ a q log, part.run.run p = (.ok a, q) → Alike ((next a).run.run q) ((following a).run.run { q with log })) :
    Alike ((part >>= next).run.run p) ((other >>= following).run.run p') := by
  obtain ⟨hresult, log, hprogress⟩ := h
  rw [run_bind, run_bind]
  cases hpart : part.run.run p with
  | mk result q =>
    cases hother : other.run.run p' with
    | mk result' q' =>
      rw [hpart, hother] at hresult hprogress
      obtain rfl : result' = result := hresult
      obtain rfl : q' = { q with log } := hprogress
      cases result' with
      | error error => exact ⟨rfl, log, rfl⟩
      | ok a => exact hnext a q log hpart

/-- Parts that agree, and go on with parts that agree, agree together. -/
theorem Agree.bind {part other : Searching α} {next following : α → Searching β} (h : Agree part other)
    (hnext : ∀ a, Agree (next a) (following a)) : Agree (part >>= next) (other >>= following) :=
  fun p log => (h p log).bind fun a q log' _ => hnext a q log'

/-- An answer agrees with itself. -/
theorem Agree.pure (a : α) : Agree (Pure.pure a : Searching α) (Pure.pure a) := fun _ log => ⟨rfl, log, rfl⟩

/-- So does a failure. -/
theorem Agree.failWith (error : ConfigError) : Agree (failWith error : Searching α) (failWith error) :=
  fun _ log => ⟨rfl, log, rfl⟩

/-- It does not matter what is noted. -/
theorem Agree.note (level level' : LogLevel) (message message' : String) (fields fields' : List (String × LogValue)) :
    Agree (note level message fields) (note level' message' fields') := fun _ _ => ⟨rfl, _, rfl⟩

/-- A change that does not depend on what was noted. -/
theorem Agree.modify {change : Progress → Progress} (h : ∀ p log, ∃ more, change { p with log } = { change p with log := more }) :
    Agree (modify change) (modify change) := fun p log => ⟨rfl, h p log⟩

/-! ## Visits -/

section Visits

variable {plan : SearchPlan} {resources others : Resources} {profile : Option String} {p q : Progress} {log : List LogEvent}

/-- Reading a resource does not depend on what was noted. -/
theorem agree_readLayer (resource : Resource) (location extension : String) (wanted : Option String) :
    Agree (readLayer plan resource location extension wanted) (readLayer plan resource location extension wanted) := by
  unfold readLayer
  cases plan.formats.format? extension with
  | none => exact Agree.pure ()
  | some format =>
    simp only
    cases format.read (layerName location wanted) resource wanted with
    | error cause => exact Agree.failWith _
    | ok layer =>
      cases layer with
      | none => exact Agree.note _ _ _ _ _ _
      | some layer =>
        refine Agree.bind (Agree.note _ _ _ _ _ _) fun _ p log => ?_
        obtain ⟨more, haccept⟩ := @Progress.accept_withLog p log { layer with profile := wanted }
        simp only [run_bind, run_get, haccept]
        cases p.accept { layer with profile := wanted } with
        | error fault => exact ⟨rfl, log, rfl⟩
        | ok q => exact ⟨rfl, more, rfl⟩

/-- What looking up a location does goes by what is found there. -/
theorem run_lookUp (location : String) : ∃ more, (lookUp resources profile location).run.run p =
    ((resources.found location).mapError (ConfigError.read location),
      { p with probed := p.probed ++ [location], log := p.log ++ more }) := by
  unfold lookUp Resources.found
  simp only [run_bind, run_modify]
  cases resources location with
  | ok answer =>
    cases answer with
    | some resource => exact ⟨[], by rw [List.append_nil]; rfl⟩
    | none => exact ⟨_, rfl⟩
  | error cause =>
    cases cause with
    | unsupported unknown => exact ⟨_, rfl⟩
    | read path reason => exact ⟨[], by rw [List.append_nil]; rfl⟩

/-- Looking up a location does the same where the same is found. -/
theorem agree_lookUp {location : String} (h : resources.found location = others.found location) :
    Agree (lookUp resources profile location) (lookUp others profile location) := by
  intro p log
  obtain ⟨more, hfirst⟩ := @run_lookUp resources profile p location
  obtain ⟨more', hsecond⟩ := @run_lookUp others profile { p with log } location
  rw [hfirst, hsecond, h]
  exact ⟨rfl, _, rfl⟩

/-- What reading a file again does goes by what is found there. -/
theorem visit_again (location extension : String) (wanted : Option String) :
    visit plan resources profile (.again location extension wanted) =
      match resources.found location with
      | .ok (some resource) => readLayer plan resource location extension wanted
      | _ => Pure.pure () := by
  simp only [visit, Resources.found]
  cases resources location with
  | ok answer => rfl
  | error cause => cases cause <;> rfl

/-- A visit does the same where its readings find the same. -/
theorem agree_visit {aim : Visit} (h : ∀ reading ∈ aim.readings, resources.found reading.location = others.found reading.location) :
    Agree (visit plan resources profile aim) (visit plan others profile aim) := by
  cases aim with
  | file location extension wanted =>
    refine Agree.bind (agree_lookUp (h _ (List.mem_singleton_self _))) fun found => ?_
    cases found with
    | none => exact Agree.pure ()
    | some resource => exact agree_readLayer resource location extension wanted
  | again location extension wanted =>
    have hfound : resources.found location = others.found location := h _ (List.mem_singleton_self _)
    rw [visit_again, visit_again, ← hfound]
    split
    · exact agree_readLayer _ location extension wanted
    · exact Agree.pure ()
  | passBy location => exact Agree.note _ _ _ _ _ _

/-- A visit looks up the locations of its readings, whether it succeeds or fails. -/
theorem probed_visit (aim : Visit) :
    ((visit plan resources profile aim).run.run p).2.probed = p.probed ++ Reading.lookedUp aim.readings := by
  cases hvisit : (visit plan resources profile aim).run.run p with
  | mk result q =>
    cases result with
    | ok => exact (visit_went hvisit).probed
    | error error =>
      obtain ⟨reading, hreadings, hprobed, -⟩ := visit_error hvisit
      rw [hreadings]
      exact hprobed

/-- What a search looked up stays so while it makes moves. -/
theorem probed_of_moves {location : String} (h : ReflTransGen (Move plan resources) p q) (hlocation : location ∈ p.probed) :
    location ∈ q.probed := by
  induction h with
  | refl => exact hlocation
  | tail _ hmove ih =>
    cases hmove with
    | noted => exact ih
    | lookedUp => exact List.mem_append_left _ ih
    | accepted _ haccept => exact (accept_went haccept).2.1 ▸ ih

/-- What a part looked up stays so if the parts behind keep it. -/
theorem probed_of_bind {part : Searching α} {next : α → Searching β} {location : String}
    (hnext : ∀ a q, location ∈ q.probed → location ∈ ((next a).run.run q).2.probed)
    (hlocation : location ∈ (part.run.run p).2.probed) : location ∈ ((part >>= next).run.run p).2.probed := by
  rw [run_bind]
  cases hpart : part.run.run p with
  | mk result q =>
    rw [hpart] at hlocation
    cases result with
    | error error => exact hlocation
    | ok a => exact hnext a q hlocation

/-- What was looked up stays so through some visits. -/
theorem probed_of_visits {visits : List Visit} {location : String} (hlocation : location ∈ p.probed) :
    location ∈ ((visits.forM (visit plan resources profile)).run.run p).2.probed :=
  probed_of_moves ((visits_moves visits profile).moves p) hlocation

/-- Readings whose files, where one is read again, were looked up before: they are among some locations, or among those that the readings
look up. -/
def LookedUpBefore (probed : List String) (readings : List Reading) : Prop :=
  ∀ before reading behind, readings = before ++ reading :: behind → reading.again = true →
    reading.location ∈ probed ++ Reading.lookedUp before

/-- Readings that look a file up before they read it again read nothing that was not looked up. -/
theorem LookedUpBefore.of_looksUpFirst {readings : List Reading} (h : SearchPlan.LooksUpFirst readings) (probed : List String) :
    LookedUpBefore probed readings := by
  intro before reading behind heq hagain
  obtain ⟨other, ho, hlocation, hfresh⟩ := h before reading behind heq hagain
  refine List.mem_append_right _ (List.mem_map.mpr ⟨other, List.mem_filter.mpr ⟨ho, ?_⟩, hlocation⟩)
  rw [hfresh]
  rfl

/-- Behind some readings their locations have been looked up. -/
theorem LookedUpBefore.behind {probed : List String} {readings later : List Reading}
    (h : LookedUpBefore probed (readings ++ later)) : LookedUpBefore (probed ++ Reading.lookedUp readings) later := by
  intro before reading behind heq hagain
  have hall := h (readings ++ before) reading behind (by rw [heq, List.append_assoc]) hagain
  rw [Reading.lookedUp_append, ← List.append_assoc] at hall
  exact hall

/-- Each location that a visit reads from was looked up before or is looked up for it. -/
theorem LookedUpBefore.location {probed : List String} {aim : Visit} {later : List Reading}
    (h : LookedUpBefore probed (aim.readings ++ later)) :
    ∀ reading ∈ aim.readings, reading.location ∈ probed ++ Reading.lookedUp aim.readings := by
  intro reading hr
  cases aim with
  | file location extension wanted =>
    obtain rfl := List.mem_singleton.mp hr
    exact List.mem_append_right _ (List.mem_singleton_self _)
  | again location extension wanted =>
    obtain rfl := List.mem_singleton.mp hr
    exact h [] _ later rfl rfl
  | passBy location => nomatch hr

/-- Visits do the same if the same is found at each location that is looked up until they are over. -/
theorem alike_visits {visits : List Visit} (hbefore : LookedUpBefore p.probed (visits.flatMap Visit.readings))
    (h : ∀ location ∈ ((visits.forM (visit plan resources profile)).run.run p).2.probed,
      resources.found location = others.found location) :
    Alike ((visits.forM (visit plan resources profile)).run.run p)
      ((visits.forM (visit plan others profile)).run.run { p with log }) := by
  induction visits generalizing p log with
  | nil => exact ⟨rfl, log, rfl⟩
  | cons aim visits ih =>
    rw [List.flatMap_cons] at hbefore
    have hforM : ∀ resources, (aim :: visits).forM (visit plan resources profile) =
        (visit plan resources profile aim >>= fun _ => visits.forM (visit plan resources profile)) := fun _ => rfl
    have hprobed := @probed_visit plan resources profile p aim
    rw [hforM, hforM]
    rw [hforM] at h
    have haim : Agree (visit plan resources profile aim) (visit plan others profile aim) := by
      refine agree_visit fun reading hr => h _ (probed_of_bind (fun _ _ => probed_of_visits) ?_)
      rw [hprobed]
      exact hbefore.location reading hr
    refine (haim p log).bind fun _ q log' hvisit => ih ?_ ?_
    · rw [hvisit] at hprobed
      rw [show q.probed = p.probed ++ Reading.lookedUp aim.readings from hprobed]
      exact hbefore.behind
    · rw [run_bind, hvisit] at h
      exact h

end Visits

/-! ## Passes -/

section Passes

variable {plan : SearchPlan} {resources others : Resources} {p q : Progress} {log : List LogEvent} {limit left : Nat}

/-- So do those of the visits of a pass. -/
theorem lookedUpBefore_visits (probed earlier : List String) (profile : Option String) :
    LookedUpBefore probed ((plan.visits earlier profile).flatMap Visit.readings) := by
  rw [SearchPlan.readings_visits]
  exact .of_looksUpFirst SearchPlan.looksUpFirst_readings probed

/-- A turn does the same if the same is found at each location that is looked up until it is over. The end of a pass looks nothing up. -/
theorem alike_turn {processed : ProfileSet} {waiting : List (Option Profile)}
    (h : ∀ location ∈ ((turn plan resources processed waiting).run.run p).2.probed,
      resources.found location = others.found location) :
    Alike ((turn plan resources processed waiting).run.run p) ((turn plan others processed waiting).run.run { p with log }) := by
  cases waiting with
  | nil => exact ⟨rfl, log, rfl⟩
  | cons pass rest =>
    cases pass with
    | none => exact alike_visits (lookedUpBefore_visits _ _ _) h
    | some profile =>
      simp only [turn] at h ⊢
      split
      · exact ⟨rfl, log, rfl⟩
      · rename_i hnew
        rw [if_neg hnew, run_bind, run_modify] at h
        refine Alike.bind ⟨rfl, _, rfl⟩ fun _ begun log' hbegun => ?_
        cases hbegun
        refine (alike_visits (lookedUpBefore_visits _ _ _) fun location hlocation =>
          h location (probed_of_bind (fun _ _ hq => hq) hlocation)).bind fun _ q log'' _ => ⟨rfl, log'', rfl⟩

/-- What a search looked up stays so while a turn is made, whether it succeeds or fails. -/
theorem probed_of_turn {processed : ProfileSet} {waiting : List (Option Profile)} {location : String}
    (hlocation : location ∈ p.probed) : location ∈ ((turn plan resources processed waiting).run.run p).2.probed := by
  cases waiting with
  | nil => exact hlocation
  | cons pass rest =>
    cases pass with
    | none => exact probed_of_bind (fun _ _ => probed_of_visits) hlocation
    | some profile =>
      simp only [turn]
      split
      · exact hlocation
      · exact probed_of_bind (fun _ _ hbegun => probed_of_bind (fun _ _ hq => hq) (probed_of_visits hbegun)) hlocation

/-- What was looked up stays so through all passes. -/
theorem probed_of_passes {location : String} (hlocation : location ∈ p.probed) :
    location ∈ ((passes plan resources limit left).run.run p).2.probed := by
  induction left generalizing p with
  | zero =>
    rw [run_passes_zero]
    split <;> exact hlocation
  | succ left ih =>
    rw [run_passes_succ]
    split
    · exact hlocation
    · exact probed_of_bind (fun _ _ => ih) (probed_of_turn hlocation)

/-- Passes do the same if the same is found at each location that is looked up until they are over. -/
theorem alike_passes (h : ∀ location ∈ ((passes plan resources limit left).run.run p).2.probed,
      resources.found location = others.found location) :
    Alike ((passes plan resources limit left).run.run p) ((passes plan others limit left).run.run { p with log }) := by
  induction left generalizing p log with
  | zero =>
    rw [run_passes_zero, run_passes_zero]
    by_cases hw : p.waiting = []
    · rw [if_pos hw, if_pos hw]
      exact ⟨rfl, log, rfl⟩
    · rw [if_neg hw, if_neg hw]
      exact ⟨rfl, log, rfl⟩
  | succ left ih =>
    rw [run_passes_succ] at h ⊢
    rw [run_passes_succ]
    by_cases hw : p.waiting = []
    · rw [if_pos hw, if_pos hw]
      exact ⟨rfl, log, rfl⟩
    · rw [if_neg hw] at h ⊢
      rw [if_neg hw]
      refine Alike.bind (alike_turn fun location hlocation => h location (probed_of_bind (fun _ _ => probed_of_passes) hlocation))
        fun _ q log' hturn => ih ?_
      rw [run_bind, hturn] at h
      exact h

end Passes

/-- Two searches in an environment look up the same locations in the same order, and come to the same result with the same environment
behind it, if at each location that the first one looks up both find the same; there a location of a kind that is not understood counts
as one where nothing is. They make the same passes and read the same layers, too. -/
theorem run_of_found_eq (discovery : Discovery) (env : Environment) (resources others : Resources)
    (h : ∀ location ∈ (discovery.run resources env).probed, resources.found location = others.found location) :
    (discovery.run others env).probed = (discovery.run resources env).probed ∧
      (discovery.run others env).result = (discovery.run resources env).result ∧
      (discovery.run others env).environment = (discovery.run resources env).environment ∧
      (discovery.run others env).history = (discovery.run resources env).history := by
  unfold run at h ⊢
  cases hplan : discovery.plan env with
  | error fault => exact ⟨rfl, rfl, rfl, rfl⟩
  | ok plan =>
    cases hstart : Progress.start env with
    | error fault => exact ⟨rfl, rfl, rfl, rfl⟩
    | ok start =>
      simp only [hplan, hstart] at h ⊢
      have halike : Alike ((passes plan resources discovery.passLimit discovery.passLimit).run.run start)
          ((passes plan others discovery.passLimit discovery.passLimit).run.run start) := by
        refine @alike_passes plan resources others start start.log _ _ fun location hlocation => h location ?_
        generalize (passes plan resources discovery.passLimit discovery.passLimit).run.run start = outcome at hlocation
        obtain ⟨result, finish⟩ := outcome
        cases result <;> exact hlocation
      obtain ⟨hresult, log, hprogress⟩ := halike
      generalize (passes plan others discovery.passLimit discovery.passLimit).run.run start = second at hresult hprogress
      generalize (passes plan resources discovery.passLimit discovery.passLimit).run.run start = first at hresult hprogress
      obtain ⟨result, finish⟩ := first
      obtain ⟨result', finish'⟩ := second
      obtain rfl : result' = result := hresult
      obtain rfl : finish' = { finish with log } := hprogress
      cases result' <;> exact ⟨rfl, rfl, rfl, rfl⟩

/-- The files that include each other's profiles, with one more for a profile that has no pass, and a place of a kind that is not
understood. -/
def moreFiles : Resources := fun location =>
  if location = "classpath:/application-default.properties" then .error (.unsupported location)
  else if location = "classpath:/application-c.properties" then
    .ok (some { location, description := location, contents := "liftoff.profiles.include=d" })
  else includingFiles location

/-- The profile has no pass, so its file is not looked up; where the place is, there was nothing before. -/
theorem run_of_found_eq_moreFiles :
    (∀ location ∈ (searchOfRoot.run includingFiles {}).probed, includingFiles.found location = moreFiles.found location) ∧
      includingFiles "classpath:/application-c.properties" ≠ moreFiles "classpath:/application-c.properties" ∧
      includingFiles "classpath:/application-default.properties" ≠ moreFiles "classpath:/application-default.properties" ∧
      (searchOfRoot.run moreFiles {}).probed = (searchOfRoot.run includingFiles {}).probed ∧
      (searchOfRoot.run moreFiles {}).result = (searchOfRoot.run includingFiles {}).result ∧
      (searchOfRoot.run moreFiles {}).environment = (searchOfRoot.run includingFiles {}).environment := by
  have hfound : ∀ location ∈ (searchOfRoot.run includingFiles {}).probed,
      includingFiles.found location = moreFiles.found location := by decide +kernel
  obtain ⟨hprobed, hresult, henvironment, -⟩ := run_of_found_eq searchOfRoot {} includingFiles moreFiles hfound
  exact ⟨hfound, by decide +kernel, by decide +kernel, hprobed, hresult, henvironment⟩

end Discovery

end Ignition
