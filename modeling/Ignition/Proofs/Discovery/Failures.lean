import Ignition.Proofs.Discovery.Activation
import Ignition.Proofs.Discovery.Itinerary
import Ignition.Proofs.Discovery.Limits

/-!
# Searches that fail

A search that fails has followed its itinerary up to a reading, and none of the readings before this one failed (`BreaksOff`). If a file
is at fault, it is the one at the location of this reading, which was looked up: its format rejects it, or it cannot be read
(`Reading.Fails`). The environment has its layers as before, and its active profiles are those that the rule gives for the layers read so
far, so none has gone and none is there twice (`faults_of_run`).
-/

namespace Ignition

/-- A reading fails with an error: what is found at its location is rejected by its format, or cannot be read. A file that is read again
was found before. -/
inductive Reading.Fails (formats : Formats) (resources : Resources) (reading : Reading) : ConfigError → Prop where
  | rejected {format : Format} {resource : Resource} {cause : Failure} :
      formats.format? reading.extension = some format → resources reading.location = .ok (some resource) →
      format.read reading.layerName resource reading.wanted = .error cause →
      Fails formats resources reading (ConfigError.load reading.location cause)
  | unreadable {path reason : String} :
      reading.again = false → resources reading.location = .error (.read path reason) →
      Fails formats resources reading (ConfigError.read reading.location (.read path reason))

/-- The locations that readings look up. -/
def Reading.lookedUp (readings : List Reading) : List String :=
  (readings.filter (!·.again)).map (·.location)

namespace Reading

variable {formats : Formats} {resources : Resources} {reading : Reading} {error : ConfigError}

/-- A reading that fails names its location. -/
theorem Fails.location?_eq (h : reading.Fails formats resources error) : error.location? = some reading.location := by
  cases h <;> rfl

theorem lookedUp_append (readings others : List Reading) :
    lookedUp (readings ++ others) = lookedUp readings ++ lookedUp others := by
  simp [lookedUp]

end Reading

namespace Discovery

open Progress
open Relation (ReflTransGen)

/-! ## Where visits fail -/

section Visits

variable {plan : SearchPlan} {resources : Resources} {profile : Option String} {p q : Progress} {error : ConfigError}

/-- Whether a location is at fault. -/
def atLocation (fault : ConfigFault) : Bool :=
  ({ fault } : ConfigError).location?.isSome

/-- An error that is not about a location names none. -/
theorem location?_of_avoids {α : Type} {outcome : Except ConfigFault α} {fault : ConfigFault} (havoids : Avoids atLocation outcome)
    (h : outcome = .error fault) : ({ fault } : ConfigError).location? = none :=
  Option.isNone_iff_eq_none.mp (Option.isSome_eq_false_iff.mp (havoids fault h))

/-- No location is at fault if a layer asks for profiles in a malformed list. -/
theorem location?_of_accept {layer : Layer} {fault : ConfigFault} (h : p.accept layer = .error fault) :
    ({ fault } : ConfigError).location? = none := by
  have havoids : Avoids atLocation (p.accept layer) := accept_avoids (fun _ => rfl) fun _ _ _ _ _ _ => rfl
  exact location?_of_avoids havoids h

/-- Reading what is found at a location fails if its format rejects it, or else for no fault of a location. -/
theorem readLayer_error (reading : Reading) {resource : Resource} (hfound : resources reading.location = .ok (some resource))
    (h : (readLayer plan resource reading.location reading.extension reading.wanted).run.run p = (.error error, q)) :
    q.probed = p.probed ∧ q.processed = p.processed ∧
      (reading.Fails plan.formats resources error ∨ error.location? = none) := by
  unfold readLayer at h
  cases hformat : plan.formats.format? reading.extension with
  | none =>
    rw [hformat] at h
    cases h
  | some format =>
    rw [hformat] at h
    simp only at h
    cases hread : format.read (layerName reading.location reading.wanted) resource reading.wanted with
    | error cause =>
      rw [hread] at h
      cases h
      exact ⟨rfl, rfl, .inl (.rejected hformat hfound hread)⟩
    | ok found =>
      rw [hread] at h
      cases found with
      | none => cases h
      | some layer =>
        simp only [run_bind, run_note, run_get] at h
        split at h
        · cases h
        · rename_i fault haccept
          cases h
          exact ⟨rfl, rfl, .inr (location?_of_accept haccept)⟩

/-- Where a reading succeeds its format does not reject what is found. -/
theorem readLayer_ok (reading : Reading) {resource : Resource} (hfound : resources reading.location = .ok (some resource))
    (h : (readLayer plan resource reading.location reading.extension reading.wanted).run.run p = (.ok (), q)) :
    ¬ reading.Fails plan.formats resources error := by
  intro hfails
  cases hfails with
  | @rejected format found cause hformat hfound' hread =>
    obtain rfl := Option.some.inj (Except.ok.inj (hfound'.symm.trans hfound))
    unfold readLayer at h
    rw [hformat] at h
    simp only at h
    rw [show format.read (layerName reading.location reading.wanted) found reading.wanted = .error cause from hread] at h
    cases h
  | unreadable _ hunreadable => cases hunreadable.symm.trans hfound

/-- Looking up a location fails if what is there cannot be read. -/
theorem lookUp_error {location : String} (h : (lookUp resources profile location).run.run p = (.error error, q)) :
    q.probed = p.probed ++ [location] ∧ q.processed = p.processed ∧
      ∃ path reason, resources location = .error (.read path reason) ∧ error = ConfigError.read location (.read path reason) := by
  unfold lookUp at h
  simp only [run_bind, run_modify] at h
  cases hanswer : resources location with
  | ok answer =>
    rw [hanswer] at h
    cases answer <;> cases h
  | error cause =>
    rw [hanswer] at h
    cases cause with
    | unsupported unknown => cases h
    | read path reason =>
      cases h
      exact ⟨rfl, rfl, path, reason, rfl, rfl⟩

/-- A location that is looked up with success can be read. -/
theorem readable_of_lookUp {location : String} {found : Option Resource}
    (h : (lookUp resources profile location).run.run p = (.ok found, q)) (path reason : String) :
    resources location ≠ .error (.read path reason) := by
  intro hunreadable
  unfold lookUp at h
  simp only [run_bind, run_modify, hunreadable] at h
  cases h

/-- A visit that succeeds makes no reading that fails. -/
theorem visit_ok {aim : Visit} (h : (visit plan resources profile aim).run.run p = (.ok (), q)) :
    ∀ reading ∈ aim.readings, ∀ error, ¬ reading.Fails plan.formats resources error := by
  cases aim with
  | file location extension wanted =>
    intro reading hr error hfails
    obtain rfl := List.mem_singleton.mp hr
    simp only [visit, run_bind] at h
    cases hlook : (lookUp resources profile location).run.run p with
    | mk result q₁ =>
      rw [hlook] at h
      cases result with
      | error error => cases h
      | ok found =>
        obtain ⟨-, hfound⟩ := lookUp_went hlook
        cases found with
        | none =>
          cases hfails with
          | rejected _ hresource _ => exact absurd ((hfound _).mpr hresource) (Option.some_ne_none _).symm
          | unreadable _ hunreadable => exact readable_of_lookUp hlook _ _ hunreadable
        | some resource => exact readLayer_ok { location, extension, wanted } ((hfound resource).mp rfl) h hfails
  | again location extension wanted =>
    intro reading hr error hfails
    obtain rfl := List.mem_singleton.mp hr
    simp only [visit] at h
    split at h
    · rename_i resource hfound
      exact readLayer_ok { location, extension, wanted, again := true } hfound h hfails
    · rename_i hnone
      cases hfails with
      | rejected _ hfound _ => exact hnone _ hfound
      | unreadable hagain _ => cases hagain
  | passBy location => exact fun reading hr => absurd hr List.not_mem_nil

/-- A visit that fails makes a reading, which fails unless no location is at fault. -/
theorem visit_error {aim : Visit} (h : (visit plan resources profile aim).run.run p = (.error error, q)) :
    ∃ reading, aim.readings = [reading] ∧ q.probed = p.probed ++ Reading.lookedUp [reading] ∧ q.processed = p.processed ∧
      (reading.Fails plan.formats resources error ∨ error.location? = none) := by
  cases aim with
  | file location extension wanted =>
    refine ⟨{ location, extension, wanted }, rfl, ?_⟩
    simp only [visit, run_bind] at h
    cases hlook : (lookUp resources profile location).run.run p with
    | mk result q₁ =>
      rw [hlook] at h
      cases result with
      | error cause =>
        cases h
        obtain ⟨hprobed, hprocessed, path, reason, hunreadable, rfl⟩ := lookUp_error hlook
        exact ⟨hprobed, hprocessed, .inl (.unreadable rfl hunreadable)⟩
      | ok found =>
        obtain ⟨⟨-, hprobed, hprocessed⟩, hfound⟩ := lookUp_went hlook
        cases found with
        | none => cases h
        | some resource =>
          obtain ⟨hprobed', hprocessed', hfails⟩ := readLayer_error { location, extension, wanted } ((hfound resource).mp rfl) h
          exact ⟨hprobed'.trans hprobed, hprocessed'.trans hprocessed, hfails⟩
  | again location extension wanted =>
    refine ⟨{ location, extension, wanted, again := true }, rfl, ?_⟩
    simp only [visit] at h
    split at h
    · rename_i resource hfound
      obtain ⟨hprobed, hprocessed, hfails⟩ := readLayer_error { location, extension, wanted, again := true } hfound h
      exact ⟨hprobed.trans (List.append_nil _).symm, hprocessed, hfails⟩
    · cases h
  | passBy location => cases h

/-- Visits that succeed make no reading that fails. -/
theorem visits_ok {visits : List Visit} (h : (visits.forM (visit plan resources profile)).run.run p = (.ok (), q)) :
    ∀ reading ∈ visits.flatMap Visit.readings, ∀ error, ¬ reading.Fails plan.formats resources error := by
  induction visits generalizing p with
  | nil => exact fun reading hr => nomatch hr
  | cons aim visits ih =>
    have hrun : (visit plan resources profile aim >>= fun _ => visits.forM (visit plan resources profile)).run.run p =
        (.ok (), q) := h
    rw [run_bind] at hrun
    cases hvisit : (visit plan resources profile aim).run.run p with
    | mk result q₁ =>
      rw [hvisit] at hrun
      cases result with
      | error error => cases hrun
      | ok =>
        rw [List.flatMap_cons, List.forall_mem_append]
        exact ⟨visit_ok hvisit, ih hrun⟩

/-- A search broke off with an error at one of some readings: those before did not fail, and this one did, unless no location is at
fault. -/
structure BreaksOff (plan : SearchPlan) (resources : Resources) (readings : List Reading) (error : ConfigError)
    (made : List Reading) (last : Reading) : Prop where
  /-- The readings made are those up to the last one. -/
  readings_eq : ∃ rest, readings = made ++ last :: rest
  /-- Those before the last one did not fail. -/
  sound : ∀ reading ∈ made, ∀ error, ¬ reading.Fails plan.formats resources error
  /-- The last one did. -/
  fails : last.Fails plan.formats resources error ∨ error.location? = none

/-- Readings that did not fail may have been made before. -/
theorem BreaksOff.behind {earlier readings made : List Reading} {last : Reading}
    (h : BreaksOff plan resources readings error made last)
    (hearlier : ∀ reading ∈ earlier, ∀ error, ¬ reading.Fails plan.formats resources error) :
    BreaksOff plan resources (earlier ++ readings) error (earlier ++ made) last := by
  obtain ⟨⟨rest, rfl⟩, hsound, hfails⟩ := h
  exact ⟨⟨rest, (List.append_assoc ..).symm⟩, List.forall_mem_append.mpr ⟨hearlier, hsound⟩, hfails⟩

/-- Visits that fail break off at a reading, up to which they looked up all locations. -/
theorem visits_error {visits : List Visit} (h : (visits.forM (visit plan resources profile)).run.run p = (.error error, q)) :
    ∃ made last, BreaksOff plan resources (visits.flatMap Visit.readings) error made last ∧
      q.probed = p.probed ++ Reading.lookedUp (made ++ [last]) ∧ q.processed = p.processed := by
  induction visits generalizing p with
  | nil => cases h
  | cons aim visits ih =>
    have hrun : (visit plan resources profile aim >>= fun _ => visits.forM (visit plan resources profile)).run.run p =
        (.error error, q) := h
    rw [run_bind] at hrun
    cases hvisit : (visit plan resources profile aim).run.run p with
    | mk result q₁ =>
      rw [hvisit] at hrun
      cases result with
      | error cause =>
        cases hrun
        obtain ⟨last, hreadings, hprobed, hprocessed, hfails⟩ := visit_error hvisit
        refine ⟨[], last, ⟨⟨visits.flatMap Visit.readings, ?_⟩, nofun, hfails⟩, hprobed, hprocessed⟩
        rw [List.flatMap_cons, hreadings]
        rfl
      | ok =>
        obtain ⟨made, last, hbreak, hprobed, hprocessed⟩ := ih hrun
        have hwent := visit_went hvisit
        refine ⟨aim.readings ++ made, last, hbreak.behind (visit_ok hvisit), ?_, hprocessed.trans hwent.processed⟩
        rw [hprobed, hwent.probed, List.append_assoc, List.append_assoc, Reading.lookedUp_append aim.readings]
        rfl

end Visits

/-! ## Following the itinerary up to an error -/

section Unfailing

variable {plan : SearchPlan} {resources : Resources} {env : Environment} {p q start : Progress} {error : ConfigError}

/-- A search between two passes has followed the itinerary for the profiles processed, and no reading in it failed. -/
structure Unfailing (plan : SearchPlan) (resources : Resources) (p : Progress) : Prop extends Followed plan resources p where
  /-- No reading failed. -/
  sound : ∀ reading ∈ plan.itinerary p.processed.names, ∀ error, ¬ reading.Fails plan.formats resources error

/-- The pass for no profile follows the itinerary for no profiles, and no reading in it fails. -/
theorem unfailing_unfiltered (hloaded : p.loaded = []) (hprobed : p.probed = []) (hprocessed : p.processed.names = [])
    (h : ((plan.visits [] none).forM (visit plan resources none)).run.run p = (.ok (), q)) :
    Unfailing plan resources q := by
  refine ⟨followed_unfiltered hloaded hprobed hprocessed h, ?_⟩
  rw [(visits_went h).processed, hprocessed, SearchPlan.itinerary, SearchPlan.readingsBehind, List.append_nil,
    ← SearchPlan.readings_visits]
  exact visits_ok h

/-- A turn behind the pass for no profile follows the itinerary, and no reading in it fails. -/
theorem Unfailing.turn (hp : Unfailing plan resources p) (hturn : Turn plan resources p q) (hnone : none ∉ p.waiting) :
    Unfailing plan resources q := by
  refine ⟨hp.toFollowed.turn hturn hnone, ?_⟩
  cases hturn with
  | unfiltered hw _ => exact absurd (hw ▸ List.mem_cons_self) hnone
  | skipped _ _ => exact hp.sound
  | @filtered q profile rest _ hnew hrun =>
    have hnames : (q.processed.insert profile).names = p.processed.names ++ [profile.name] := by
      rw [(visits_went hrun).processed]
      exact ProfileSet.names_insert_of_notMem (ProfileSet.contains_eq_false_iff.mp hnew)
    simp only [hnames]
    rw [SearchPlan.itinerary_concat, List.forall_mem_append, ← SearchPlan.readings_visits]
    exact ⟨hp.sound, visits_ok hrun⟩

/-- Behind the first turn, which makes the pass for no profile, a search is orderly and nothing has failed. -/
theorem unfailing_of_turns (hstart : Progress.start env = .ok start) (hturns : ReflTransGen (Turn plan resources) start q) :
    q = start ∨ Orderly env none q ∧ Unfailing plan resources q := by
  have hkept := orderly_kept env plan resources
  obtain ⟨rest, hw, horderly⟩ := orderly_start hstart
  obtain ⟨hloaded, hprobed, hprocessed⟩ := start_fresh hstart
  induction hturns with
  | refl => exact .inl rfl
  | tail _ hturn ih =>
    rcases ih with rfl | ⟨hbetween, hunfailing⟩
    · refine .inr ⟨hkept.first hw horderly hturn, ?_⟩
      cases hturn with
      | unfiltered hw' hrun =>
        cases hw.symm.trans hw'
        rw [hprocessed] at hrun
        refine unfailing_unfiltered ?_ ?_ ?_ hrun
        · exact (Milestone.layers_append_pass _ _).trans hloaded
        · exact hprobed
        · exact hprocessed
      | skipped hw' _ => cases hw.symm.trans hw'
      | filtered hw' _ _ => cases hw.symm.trans hw'
    · exact .inr ⟨hkept.turn hturn hbetween, hunfailing.turn hturn (hkept.waiting hbetween)⟩

/-- In a search that came to its end nothing failed. -/
theorem Completed.unfailing {discovery : Discovery} {finish : Progress}
    (h : Completed discovery resources env plan start finish) : Unfailing plan resources finish := by
  rcases unfailing_of_turns h.start_eq h.turns with rfl | ⟨-, hunfailing⟩
  · obtain ⟨rest, hw, -⟩ := orderly_start h.start_eq
    cases h.done.symm.trans hw
  · exact hunfailing

/-- A turn that fails breaks off at a reading of the itinerary for the profiles whose passes have begun, up to which all locations were
looked up. -/
theorem breaksOff_of_turn (hstart : Progress.start env = .ok start) (hturns : ReflTransGen (Turn plan resources) start p)
    (h : (turn plan resources p.processed p.waiting).run.run p = (.error error, q)) :
    ∃ profiles made last, Milestone.passes q.history = none :: profiles.map some ∧
      BreaksOff plan resources (plan.itinerary profiles) error made last ∧ q.probed = Reading.lookedUp (made ++ [last]) := by
  have hkept := orderly_kept env plan resources
  obtain ⟨rest, hw, horderly⟩ := orderly_start hstart
  obtain ⟨-, hprobed, hprocessed⟩ := start_fresh hstart
  rcases turn_error h with ⟨rest', hw', hvisits⟩ | ⟨profile, rest', hw', hnew, hvisits⟩
  · rcases unfailing_of_turns hstart hturns with rfl | ⟨hbetween, -⟩
    · cases hw.symm.trans hw'
      have hpasses := (hkept.visits hvisits horderly).passes
      rw [hprocessed] at hvisits
      obtain ⟨made, last, hbreak, hlooked, hsame⟩ := visits_error hvisits
      refine ⟨[], made, last, ?_, ?_, ?_⟩
      · rw [hpasses, entered, hsame]
        exact congrArg (fun names => none :: (names ++ []).map some) hprocessed
      · rw [SearchPlan.itinerary, SearchPlan.readingsBehind, List.append_nil, ← SearchPlan.readings_visits]
        exact hbreak
      · rw [hlooked]
        exact congrArg (· ++ Reading.lookedUp (made ++ [last])) hprobed
    · exact absurd (hw' ▸ List.mem_cons_self) (hkept.waiting hbetween)
  · rcases unfailing_of_turns hstart hturns with rfl | ⟨hbetween, hunfailing⟩
    · cases hw.symm.trans hw'
    · have hpasses := (hkept.visits hvisits (hkept.begin hw' hnew hbetween)).passes
      obtain ⟨made, last, hbreak, hlooked, hsame⟩ := visits_error hvisits
      refine ⟨p.processed.names ++ [profile.name], plan.itinerary p.processed.names ++ made, last, ?_, ?_, ?_⟩
      · rw [hpasses, entered, hsame]
        rfl
      · rw [SearchPlan.itinerary_concat, ← SearchPlan.readings_visits]
        exact hbreak.behind hunfailing.sound
      · rw [hlooked, List.append_assoc, Reading.lookedUp_append (plan.itinerary _)]
        exact congrArg (· ++ Reading.lookedUp (made ++ [last])) hunfailing.probed

end Unfailing

/-! ## The active profiles -/

section Grown

variable {plan : SearchPlan} {resources : Resources} {env : Environment} {finish start : Progress} {error : ConfigError}

/-- A layer that asks for profiles lets the active ones grow. -/
theorem grown_activeWith (env : Environment) (earlier : List AskingLayer) (active : List String) (layer : AskingLayer) :
    Grown active (activeWith env earlier active layer) := by
  rw [activeWith]
  refine Grown.trans ?_ (.foldl grown_withNameFirst _ _)
  split
  · exact .foldl grown_withNameFirst _ _
  · exact .refl active

/-- So do layers one after the other. -/
theorem grown_activeBehind (env : Environment) (earlier : List AskingLayer) (active : List String) (layers : List AskingLayer) :
    Grown active (activeBehind env earlier active layers) := by
  induction layers generalizing earlier active with
  | nil => exact .refl active
  | cons layer later ih => exact (grown_activeWith env earlier active layer).trans (ih _ _)

theorem grown_activeAtStart (env : Environment) : Grown env.active (activeAtStart env) :=
  (Grown.foldl grown_withName _ _).trans (.foldl grown_withNameFirst _ _)

/-- Where the passes of a search fail, of its environment only the active profiles have changed, and they have grown. -/
theorem grown_of_passes_error {limit left : Nat} (hstart : Progress.start env = .ok start)
    (h : (passes plan resources limit left).run.run start = (.error error, finish)) :
    finish.environment = { env with active := finish.environment.active } ∧ Grown env.active finish.environment.active := by
  obtain ⟨rest, hw, hattributed⟩ := attributed_start hstart
  obtain ⟨layers, henvironment, hactive⟩ : ∃ layers : List AskingLayer,
      finish.environment = { env with active := finish.environment.active } ∧
      finish.environment.active = activeBehind env [] (activeAtStart env) layers := by
    rcases (attributed_kept env plan resources).start_error hw hattributed h with ⟨-, rfl | hfinish⟩ | ⟨current, hfinish, -⟩
    · exact ⟨_, hattributed.environment, hattributed.active_eq⟩
    · exact ⟨_, hfinish.environment, hfinish.active_eq⟩
    · exact ⟨_, hfinish.environment, hfinish.active_eq⟩
  refine ⟨henvironment, ?_⟩
  rw [hactive]
  exact (grown_activeAtStart env).trans (grown_activeBehind env _ _ _)

end Grown

/-! ## What may be at fault, and what a failure changes -/

section Runs

variable {discovery : Discovery} {resources : Resources} {env : Environment} {error : ConfigError} {found : Discovered}

/-- A search that failed did so before its first pass, for no fault of a location and without changing anything, or in its passes. -/
theorem run_eq_error (h : (discovery.run resources env).result = .error error) :
    (discovery.run resources env = { result := .error error, environment := env } ∧ error.location? = none) ∨
      ∃ plan start finish, discovery.plan env = .ok plan ∧ Progress.start env = .ok start ∧
        (passes plan resources discovery.passLimit discovery.passLimit).run.run start = (.error error, finish) ∧
        discovery.run resources env =
          { result := .error error
            environment := finish.environment
            history := finish.history
            probed := finish.probed
            log := finish.log } := by
  have hplans : Avoids atLocation (discovery.plan env) := plan_avoids fun _ _ _ _ _ _ => rfl
  have hstarts : Avoids atLocation (Progress.start env) := start_avoids (fun _ => rfl) fun _ _ _ _ _ _ => rfl
  cases hplan : discovery.plan env with
  | error fault =>
    have hrun : discovery.run resources env = { result := .error { fault }, environment := env } := by simp only [run, hplan]
    rw [hrun] at h
    cases h
    exact .inl ⟨hrun, location?_of_avoids hplans hplan⟩
  | ok plan =>
    cases hstart : Progress.start env with
    | error fault =>
      have hrun : discovery.run resources env = { result := .error { fault }, environment := env } := by
        simp only [run, hplan, hstart]
      rw [hrun] at h
      cases h
      exact .inl ⟨hrun, location?_of_avoids hstarts hstart⟩
    | ok start =>
      cases hrun : (passes plan resources discovery.passLimit discovery.passLimit).run.run start with
      | mk result finish =>
        cases result with
        | ok => simp [run, hplan, hstart, hrun] at h
        | error other =>
          simp only [run, hplan, hstart, hrun] at h ⊢
          cases h
          exact .inr ⟨plan, start, finish, rfl, rfl, hrun, rfl⟩

/-- Passes that fail break off at a reading of the itinerary for the profiles whose passes have begun, if a location is at fault; this
reading failed, and its location was looked up. A file that is read again was looked up for a reading before. -/
theorem breaksOff_of_passes {plan : SearchPlan} {start finish : Progress} {limit left : Nat} {location : String}
    (hstart : Progress.start env = .ok start) (hlocation : error.location? = some location)
    (h : (passes plan resources limit left).run.run start = (.error error, finish)) :
    ∃ profiles made last, Milestone.passes finish.history = none :: profiles.map some ∧
      BreaksOff plan resources (plan.itinerary profiles) error made last ∧ finish.probed = Reading.lookedUp (made ++ [last]) ∧
      last.location = location ∧ location ∈ finish.probed ∧ last.Fails plan.formats resources error := by
  obtain ⟨between, hturns, -, ⟨rfl, rfl⟩ | hturn⟩ := passes_error h
  · nomatch hlocation
  · obtain ⟨profiles, made, last, hpasses, hbreak, hprobed⟩ := breaksOff_of_turn hstart hturns hturn
    have hfails : last.Fails plan.formats resources error :=
      hbreak.fails.resolve_right fun hnone => nomatch hnone.symm.trans hlocation
    have hlast : last.location = location := Option.some.inj (hfails.location?_eq.symm.trans hlocation)
    refine ⟨profiles, made, last, hpasses, hbreak, hprobed, hlast, ?_, hfails⟩
    rw [hprobed, ← hlast, Reading.lookedUp_append, List.mem_append]
    cases hagain : last.again with
    | false => exact .inr (by simp [Reading.lookedUp, hagain])
    | true =>
      obtain ⟨rest, hrest⟩ := hbreak.readings_eq
      obtain ⟨other, ho, hsame, hfresh⟩ := SearchPlan.looksUpFirst_itinerary made last rest hrest hagain
      exact .inl (List.mem_map.mpr ⟨other, List.mem_filter.mpr ⟨ho, by rw [hfresh]; rfl⟩, hsame⟩)

/-- In a search that failed, of the environment only the active profiles have changed; those that there were are still there in order,
and none is there twice. If a file is at fault, the search has followed the itinerary for the profiles whose passes have begun up to a
reading of this file, which its format rejects or which cannot be read, and no reading before failed. In a search that came to its end no
reading of the itinerary failed, and no location that was looked up is one that cannot be read. -/
theorem faults_of_run (discovery : Discovery) (resources : Resources) (env : Environment) (hactive : env.active.Nodup) :
    (∀ error, (discovery.run resources env).result = .error error →
      (discovery.run resources env).environment = { env with active := (discovery.run resources env).environment.active } ∧
        env.active.Sublist (discovery.run resources env).environment.active ∧
        (discovery.run resources env).environment.active.Nodup ∧
        ∀ location, error.location? = some location → location ∈ (discovery.run resources env).probed ∧
          ∃ plan profiles made last, discovery.plan env = .ok plan ∧
            Milestone.passes (discovery.run resources env).history = none :: profiles.map some ∧
            BreaksOff plan resources (plan.itinerary profiles) error made last ∧
            (discovery.run resources env).probed = Reading.lookedUp (made ++ [last]) ∧
            last.location = location ∧ last.Fails discovery.formats resources error) ∧
    ∀ found, (discovery.run resources env).result = .ok found →
      ∃ plan, discovery.plan env = .ok plan ∧
        (discovery.run resources env).probed = Reading.lookedUp (plan.itinerary found.processed) ∧
        (∀ reading ∈ plan.itinerary found.processed, ∀ error, ¬ reading.Fails discovery.formats resources error) ∧
        ∀ location ∈ (discovery.run resources env).probed, ∀ path reason, resources location ≠ .error (.read path reason) := by
  constructor
  · intro error herror
    rcases run_eq_error herror with ⟨hrun, hnone⟩ | ⟨plan, start, finish, hplan, hstart, hpasses, hrun⟩
    · rw [hrun]
      exact ⟨rfl, .refl _, hactive, fun location hlocation => nomatch hnone.symm.trans hlocation⟩
    · obtain ⟨henvironment, hgrown⟩ := grown_of_passes_error hstart hpasses
      rw [hrun]
      refine ⟨henvironment, hgrown.sublist, hgrown.nodup hactive, fun location hlocation => ?_⟩
      obtain ⟨profiles, made, last, hprofiles, hbreak, hprobed, hlast, hmem, hfails⟩ :=
        breaksOff_of_passes hstart hlocation hpasses
      rw [formats_of_plan hplan] at hfails
      exact ⟨hmem, plan, profiles, made, last, hplan, hprofiles, hbreak, hprobed, hlast, hfails⟩
  · intro found hfound
    obtain ⟨plan, start, finish, hrun⟩ := run_eq_ok hfound
    obtain ⟨-, hprocessed⟩ := hrun.found_eq hfound
    have hunfailing := hrun.unfailing
    have hprobed : (discovery.run resources env).probed = Reading.lookedUp (plan.itinerary found.processed) := by
      rw [hrun.outcome_eq, hprocessed]
      exact hunfailing.probed
    have hsound := hunfailing.sound
    rw [← hprocessed, formats_of_plan hrun.plan_eq] at hsound
    refine ⟨plan, hrun.plan_eq, hprobed, hsound, fun location hlocation path reason hunreadable => ?_⟩
    rw [hprobed] at hlocation
    obtain ⟨reading, hr, rfl⟩ := List.mem_map.mp hlocation
    obtain ⟨hmem, hfresh⟩ := List.mem_filter.mp hr
    exact hsound reading hmem _ (.unreadable ((Bool.not_eq_true' _).mp hfresh) hunreadable)

/-- A file that includes a profile, and the file of this profile, which is malformed. -/
def malformedFile : Resources :=
  Resources.ofList [("classpath:/application.properties", "liftoff.profiles.include=a"),
    ("classpath:/application-a.properties", "key=\\u12")]

/-- The profile has become active when its file fails, and the file was looked up. -/
theorem faults_of_run_malformedFile :
    let location := "classpath:/application-a.properties"
    ["x"].Nodup ∧
      (searchOfRoot.run malformedFile { active := ["x"] }).result =
        .error (ConfigError.load location { fault := .properties (.malformedUnicodeEscape 1) }) ∧
      (searchOfRoot.run malformedFile { active := ["x"] }).environment = { active := ["a", "x"] } ∧
      ["x"].Sublist (searchOfRoot.run malformedFile { active := ["x"] }).environment.active ∧
      location ∈ (searchOfRoot.run malformedFile { active := ["x"] }).probed := by
  intro location
  have hnodup : ["x"].Nodup := by decide
  have hactive : (searchOfRoot.run malformedFile { active := ["x"] }).environment.active = ["a", "x"] := by decide +kernel
  have hresult : (searchOfRoot.run malformedFile { active := ["x"] }).result =
      .error (ConfigError.load location { fault := .properties (.malformedUnicodeEscape 1) }) := by decide +kernel
  obtain ⟨hfailing, -⟩ := faults_of_run searchOfRoot malformedFile { active := ["x"] } hnodup
  obtain ⟨henvironment, hsublist, -, hfault⟩ := hfailing _ hresult
  rw [hactive] at henvironment
  exact ⟨hnodup, hresult, henvironment, hsublist, (hfault location rfl).1⟩

end Runs

end Discovery

end Ignition
