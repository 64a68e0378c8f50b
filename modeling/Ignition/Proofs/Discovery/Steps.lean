import Ignition.Discovery.Basic
import Mathlib.Logic.Relation

/-!
# The steps of a search

What a search can do, said once, so that everything else follows from it. Within a pass a search only makes *moves* (`Move`): it notes
an event, looks up a location, or takes a layer that a format read from a resource. The loop over the waiting passes makes *turns*
(`Turn`): it makes the pass for no profile, skips a profile that has had its pass, or makes the pass for a profile. A search that came
to its end is a chain of turns from its beginning to a progress where nothing waits (`run_eq_ok`), and a property that moves and the
boundaries of passes keep holds at the end (`Kept.run`).
-/

namespace Ignition

open Relation (ReflTransGen)

/-- A layer that a search can take: a format of the plan reads it from a resource, under the name for the location of the resource,
and it is marked with the profile it was read for. -/
inductive SearchPlan.Gives (plan : SearchPlan) (resources : Resources) : Layer → Prop where
  | read {location extension : String} {wanted : Option String} {format : Format} {resource : Resource} {layer : Layer} :
      plan.formats.format? extension = some format → resources location = .ok (some resource) →
      format.read (Discovery.layerName location wanted) resource wanted = .ok (some layer) →
      plan.Gives resources { layer with profile := wanted }

namespace Discovery

/-- What can happen to a search within a pass. -/
inductive Move (plan : SearchPlan) (resources : Resources) : Progress → Progress → Prop where
  | noted (p : Progress) (level : LogLevel) (message : String) (fields : List (String × LogValue)) :
      Move plan resources p (p.note level message fields)
  | lookedUp (p : Progress) (location : String) :
      Move plan resources p { p with probed := p.probed ++ [location] }
  | accepted {p q : Progress} {layer : Layer} :
      plan.Gives resources layer → p.accept layer = .ok q → Move plan resources p q

/-- The progress when the pass for a profile begins. -/
def beginning (p : Progress) (profile : Profile) (rest : List (Option Profile)) : Progress :=
  (({ p with waiting := rest } : Progress).note .debug "processing profile"
    [("profile", .text profile.name), ("default", .flag profile.standsIn)]).reach (.pass (some profile.name))

/-- What one turn of the loop over the waiting passes can do. -/
inductive Turn (plan : SearchPlan) (resources : Resources) : Progress → Progress → Prop where
  /-- The pass for no profile is made. -/
  | unfiltered {p q : Progress} {rest : List (Option Profile)} :
      p.waiting = none :: rest →
      ((plan.visits p.processed.names none).forM (visit plan resources none)).run.run
        (({ p with waiting := rest } : Progress).reach (.pass none)) = (.ok (), q) →
      Turn plan resources p q
  /-- A profile is skipped that has had its pass. -/
  | skipped {p : Progress} {profile : Profile} {rest : List (Option Profile)} :
      p.waiting = some profile :: rest → p.processed.contains profile.name = true →
      Turn plan resources p { p with waiting := rest }
  /-- The pass for a profile is made, and then the profile counts as processed. -/
  | filtered {p q : Progress} {profile : Profile} {rest : List (Option Profile)} :
      p.waiting = some profile :: rest → p.processed.contains profile.name = false →
      ((plan.visits p.processed.names (some profile.name)).forM (visit plan resources (some profile.name))).run.run
        (beginning p profile rest) = (.ok (), q) →
      Turn plan resources p { q with processed := q.processed.insert profile }

variable {plan : SearchPlan} {resources : Resources} {α β : Type}

/-! ## Parts of a search -/

/-- Two parts of a search, one behind the other: the second goes on where the first succeeded, and where the first failed, both did. -/
theorem run_bind (part : Searching α) (next : α → Searching β) (p : Progress) :
    (part >>= next).run.run p = match part.run.run p with
      | (.ok a, q) => (next a).run.run q
      | (.error error, q) => (.error error, q) := by
  rw [ExceptT.run_bind, StateT.run_bind]
  obtain ⟨result, q⟩ := part.run.run p
  cases result with
  | ok a => rfl
  | error error => rfl

/-- A note goes to the log. -/
theorem run_note (level : LogLevel) (message : String) (fields : List (String × LogValue)) (p : Progress) :
    (note level message fields).run.run p = (.ok (), p.note level message fields) := rfl

theorem run_get (p : Progress) : (get : Searching Progress).run.run p = (.ok p, p) := rfl

/-- A change of the progress does nothing else. -/
theorem run_modify (change : Progress → Progress) (p : Progress) :
    (modify change : Searching Unit).run.run p = (.ok (), change p) := rfl

/-- Why a part of a search fails where it got to: a file makes no layer or cannot be read, or a list of a layer is malformed. -/
inductive Fails (plan : SearchPlan) (resources : Resources) (p : Progress) : ConfigError → Prop where
  | loading (location : String) (cause : Failure) : Fails plan resources p (ConfigError.load location cause)
  | reading (location : String) (cause : ResourceError) : Fails plan resources p (ConfigError.read location cause)
  | accepting {layer : Layer} {fault : ConfigFault} :
      plan.Gives resources layer → p.accept layer = .error fault → Fails plan resources p { fault }

/-- A part of a search that only makes moves, whether it succeeds or fails, and that fails for the reasons that there are. -/
structure Moves (plan : SearchPlan) (resources : Resources) (part : Searching α) : Prop where
  /-- Moves lead to where the part ends. -/
  moves : ∀ p, ReflTransGen (Move plan resources) p (part.run.run p).2
  /-- It fails for a reason. -/
  fails : ∀ p error, (part.run.run p).1 = .error error → Fails plan resources (part.run.run p).2 error

/-- An answer by itself is no move. -/
theorem Moves.pure (a : α) : Moves plan resources (Pure.pure a) := ⟨fun _ => .refl, fun _ _ h => nomatch h⟩

/-- A part that only fails moves nothing. -/
theorem Moves.failWith {error : ConfigError} (h : ∀ p, Fails plan resources p error) :
    Moves plan resources (failWith error : Searching α) :=
  ⟨fun _ => .refl, fun p _ he => Except.error.inj he ▸ h p⟩

/-- A note is a move. -/
theorem Moves.note (level : LogLevel) (message : String) (fields : List (String × LogValue)) :
    Moves plan resources (note level message fields) :=
  ⟨fun p => .single (.noted p level message fields), fun _ _ h => nomatch h⟩

/-- Two parts that only make moves make only moves together; the second may rely on what the first answered. -/
theorem Moves.bind {part : Searching α} {next : α → Searching β} (h : Moves plan resources part)
    (hnext : ∀ a, (∃ p, (part.run.run p).1 = .ok a) → Moves plan resources (next a)) :
    Moves plan resources (part >>= next) := by
  constructor
  · intro p
    have hp := h.moves p
    rw [run_bind]
    cases hr : part.run.run p with
    | mk result q =>
      rw [hr] at hp
      cases result with
      | error error => exact hp
      | ok a => exact hp.trans ((hnext a ⟨p, by rw [hr]⟩).moves q)
  · intro p error
    have hp := h.fails p error
    rw [run_bind]
    cases hr : part.run.run p with
    | mk result q =>
      rw [hr] at hp
      cases result with
      | error error => exact fun he => hp (congrArg Except.error (Except.error.inj he))
      | ok a => exact (hnext a ⟨p, by rw [hr]⟩).fails q error

/-- Parts one after the other move if each of them does. -/
theorem Moves.forM {items : List α} {part : α → Searching Unit} (h : ∀ a ∈ items, Moves plan resources (part a)) :
    Moves plan resources (items.forM part) := by
  induction items with
  | nil => exact Moves.pure ()
  | cons a items ih =>
    exact Moves.bind (h a List.mem_cons_self) fun _ _ => ih fun b hb => h b (List.mem_cons_of_mem _ hb)

/-- Accepting a layer that the plan gives is a move, or fails. -/
theorem accept_moves {layer : Layer} (hgives : plan.Gives resources layer) : Moves plan resources (do
    match (← get).accept layer with
    | .ok progress => set progress
    | .error fault => failWith { fault } : Searching Unit) := by
  constructor
  · intro p
    simp only [run_bind, run_get]
    cases haccept : p.accept layer with
    | error fault => exact .refl
    | ok q => exact .single (.accepted hgives haccept)
  · intro p error
    simp only [run_bind, run_get]
    cases haccept : p.accept layer with
    | error fault => exact fun he => Except.error.inj he ▸ .accepting hgives haccept
    | ok q => exact fun he => nomatch he

/-- Reading a resource makes moves: at most one layer is taken, and it is one that the plan gives. -/
theorem readLayer_moves {location extension : String} {wanted : Option String} {resource : Resource}
    (hfound : resources location = .ok (some resource)) :
    Moves plan resources (readLayer plan resource location extension wanted) := by
  unfold readLayer
  cases hformat : plan.formats.format? extension with
  | none => exact Moves.pure ()
  | some format =>
    simp only
    cases hread : format.read (layerName location wanted) resource wanted with
    | error cause => exact Moves.failWith fun _ => .loading location cause
    | ok layer =>
      cases layer with
      | none => exact Moves.note _ _ _
      | some layer =>
        exact Moves.bind (Moves.note _ _ _) fun _ _ => accept_moves (.read hformat hfound hread)

/-- A location that is looked up is either found or not, and looking it up makes moves. -/
theorem lookUp_moves (profile : Option String) (location : String) :
    Moves plan resources (lookUp resources profile location) := by
  unfold lookUp
  refine Moves.bind ⟨fun p => .single (.lookedUp p location), fun _ _ h => nomatch h⟩ fun _ _ => ?_
  cases hanswer : resources location with
  | ok found =>
    cases found with
    | some resource => exact Moves.pure _
    | none => exact Moves.bind (Moves.note _ _ _) fun _ _ => Moves.pure _
  | error cause =>
    cases cause with
    | unsupported unknown => exact Moves.bind (Moves.note _ _ _) fun _ _ => Moves.pure _
    | read location reason => exact Moves.failWith fun _ => .reading _ _

/-- What looking up a location answers is what the resources have there. -/
theorem eq_of_lookUp {profile : Option String} {location : String} {resource : Resource} {p : Progress}
    (h : ((lookUp resources profile location).run.run p).1 = .ok (some resource)) :
    resources location = .ok (some resource) := by
  unfold lookUp at h
  simp only [run_bind, run_modify] at h
  cases hanswer : resources location with
  | ok found =>
    cases found with
    | some other => rw [hanswer] at h; cases h; rfl
    | none => rw [hanswer] at h; cases h
  | error cause => cases cause <;> (rw [hanswer] at h; cases h)

/-- A visit makes moves. -/
theorem visit_moves (profile : Option String) (aim : Visit) : Moves plan resources (visit plan resources profile aim) := by
  cases aim with
  | file location extension wanted =>
    refine Moves.bind (lookUp_moves profile location) fun found hfound => ?_
    cases found with
    | none => exact Moves.pure ()
    | some resource => exact readLayer_moves (eq_of_lookUp hfound.choose_spec)
  | again location extension wanted =>
    simp only [visit]
    split
    · rename_i resource hfound
      exact readLayer_moves hfound
    · exact Moves.pure ()
  | passBy location => exact Moves.note _ _ _

/-- A pass begins with its milestone, and then makes the visits that the plan has for it behind the passes made before. -/
theorem run_pass (profile : Option String) (p : Progress) :
    (pass plan resources profile).run.run p =
      ((plan.visits p.processed.names profile).forM (visit plan resources profile)).run.run (p.reach (.pass profile)) :=
  rfl

/-- The visits of a pass make moves. -/
theorem visits_moves (visits : List Visit) (profile : Option String) :
    Moves plan resources (visits.forM (visit plan resources profile)) :=
  Moves.forM fun _ _ => visit_moves profile _

/-- Visits lead by moves to where they end. -/
theorem moves_of_visits {visits : List Visit} {profile : Option String} {p q : Progress} {result : Except ConfigError Unit}
    (h : (visits.forM (visit plan resources profile)).run.run p = (result, q)) : ReflTransGen (Move plan resources) p q := by
  have hmoves := (@visits_moves plan resources visits profile).moves p
  rw [h] at hmoves
  exact hmoves

/-- Visits that fail do so for a reason. -/
theorem fails_of_visits {visits : List Visit} {profile : Option String} {p q : Progress} {error : ConfigError}
    (h : (visits.forM (visit plan resources profile)).run.run p = (.error error, q)) : Fails plan resources q error := by
  have hfails := (@visits_moves plan resources visits profile).fails p error
  rw [h] at hfails
  exact hfails rfl

/-! ## Turns -/

/-- One turn of the loop over some waiting passes, where some profiles are processed. -/
def turn (plan : SearchPlan) (resources : Resources) (processed : ProfileSet) : List (Option Profile) → Searching Unit
  | [] => return
  | none :: rest => do
    modify fun progress => ({ progress with waiting := rest } : Progress).reach (.pass none)
    (plan.visits processed.names none).forM (visit plan resources none)
  | some profile :: rest => do
    if processed.contains profile.name then
      modify fun progress => { progress with waiting := rest }
    else
      modify (beginning · profile rest)
      (plan.visits processed.names (some profile.name)).forM (visit plan resources (some profile.name))
      modify fun progress => { progress with processed := progress.processed.insert profile }

section Passes

variable {limit left : Nat} {p q : Progress}

/-- Where no turn is left, the search is over or was limited. -/
theorem run_passes_zero : (passes plan resources limit 0).run.run p =
    if p.waiting = [] then (.ok (), p) else (.error { fault := .tooManyPasses limit }, p) := by
  simp only [passes, run_bind, run_get, List.isEmpty_iff]
  split <;> rfl

/-- As long as a pass waits, a turn is made, and the others behind it if it succeeds. -/
theorem run_passes_succ : (passes plan resources limit (left + 1)).run.run p =
    if p.waiting = [] then (.ok (), p)
    else (turn plan resources p.processed p.waiting >>= fun _ => passes plan resources limit left).run.run p := by
  simp only [passes, run_bind, run_get]
  split
  · rename_i hw
    rw [if_pos hw]
    rfl
  · rename_i rest hw
    rw [if_neg (by rw [hw]; exact List.cons_ne_nil _ _), hw]
    simp only [turn, run_bind, run_modify, run_pass]
  · rename_i profile rest hw
    rw [if_neg (by rw [hw]; exact List.cons_ne_nil _ _), hw]
    cases hold : p.processed.contains profile.name with
    | true =>
      simp only [turn, run_bind, run_modify, run_get, hold]
      rfl
    | false =>
      simp only [turn, run_bind, run_modify, run_get, run_note, run_pass, hold, Bool.not_false, if_true, Bool.false_eq_true,
        if_false, beginning, Progress.note]
      generalize (plan.visits p.processed.names (some profile.name)).forM (visit plan resources (some profile.name)) = visits
      generalize visits.run.run _ = outcome
      obtain ⟨result, q⟩ := outcome
      cases result <;> rfl

/-- A turn that succeeds does what a turn can do. -/
theorem turn_ok (hw : p.waiting ≠ []) (h : (turn plan resources p.processed p.waiting).run.run p = (.ok (), q)) :
    Turn plan resources p q := by
  cases hwaiting : p.waiting with
  | nil => exact absurd hwaiting hw
  | cons pass rest =>
    rw [hwaiting] at h
    cases pass with
    | none => exact .unfiltered hwaiting h
    | some profile =>
      simp only [turn] at h
      split at h
      · rename_i hold
        cases h
        exact .skipped hwaiting hold
      · rename_i hnew
        simp only [run_bind, run_modify] at h
        split at h
        · rename_i q hvisits
          cases h
          exact .filtered hwaiting (Bool.eq_false_iff.mpr hnew) hvisits
        · cases h

/-- A turn that fails does so in a visit, of the pass for no profile or of that for a profile without a pass. -/
theorem turn_error {error : ConfigError} (h : (turn plan resources p.processed p.waiting).run.run p = (.error error, q)) :
    (∃ rest, p.waiting = none :: rest ∧
        ((plan.visits p.processed.names none).forM (visit plan resources none)).run.run
          (({ p with waiting := rest } : Progress).reach (.pass none)) = (.error error, q)) ∨
      ∃ profile rest, p.waiting = some profile :: rest ∧ p.processed.contains profile.name = false ∧
        ((plan.visits p.processed.names (some profile.name)).forM (visit plan resources (some profile.name))).run.run
          (beginning p profile rest) = (.error error, q) := by
  cases hwaiting : p.waiting with
  | nil =>
    rw [hwaiting] at h
    cases h
  | cons pass rest =>
    rw [hwaiting] at h
    cases pass with
    | none => exact Or.inl ⟨rest, rfl, h⟩
    | some profile =>
      simp only [turn] at h
      split at h
      · cases h
      · rename_i hnew
        simp only [run_bind, run_modify] at h
        split at h
        · cases h
        · rename_i other r hvisits
          cases h
          exact Or.inr ⟨profile, rest, rfl, Bool.eq_false_iff.mpr hnew, hvisits⟩

/-- A turn that fails does so for a reason. -/
theorem turn_fails {error : ConfigError} (h : (turn plan resources p.processed p.waiting).run.run p = (.error error, q)) :
    Fails plan resources q error := by
  rcases turn_error h with ⟨rest, -, hvisits⟩ | ⟨profile, rest, -, -, hvisits⟩
  · exact fails_of_visits hvisits
  · exact fails_of_visits hvisits

/-- Passes that all succeed are a chain of turns to where nothing waits. -/
theorem passes_ok (h : (passes plan resources limit left).run.run p = (.ok (), q)) :
    ReflTransGen (Turn plan resources) p q ∧ q.waiting = [] := by
  induction left generalizing p with
  | zero =>
    rw [run_passes_zero] at h
    split at h
    · rename_i hw
      cases h
      exact ⟨.refl, hw⟩
    · cases h
  | succ left ih =>
    rw [run_passes_succ] at h
    split at h
    · rename_i hw
      cases h
      exact ⟨.refl, hw⟩
    · rename_i hw
      rw [run_bind] at h
      split at h
      · rename_i q₁ hturn
        obtain ⟨hturns, hdone⟩ := ih h
        exact ⟨.head (turn_ok hw hturn) hturns, hdone⟩
      · cases h

/-- Passes that do not all succeed are a chain of turns to where a pass still waits; there no turn is left, or the next one fails. -/
theorem passes_error {error : ConfigError} (h : (passes plan resources limit left).run.run p = (.error error, q)) :
    ∃ r, ReflTransGen (Turn plan resources) p r ∧ r.waiting ≠ [] ∧
      (q = r ∧ error = { fault := .tooManyPasses limit } ∨
        (turn plan resources r.processed r.waiting).run.run r = (.error error, q)) := by
  induction left generalizing p with
  | zero =>
    rw [run_passes_zero] at h
    split at h
    · cases h
    · rename_i hw
      cases h
      exact ⟨_, .refl, hw, .inl ⟨rfl, rfl⟩⟩
  | succ left ih =>
    rw [run_passes_succ] at h
    split at h
    · cases h
    · rename_i hw
      rw [run_bind] at h
      split at h
      · rename_i q₁ hturn
        obtain ⟨r, hturns, hr⟩ := ih h
        exact ⟨r, .head (turn_ok hw hturn) hturns, hr⟩
      · rename_i hturn
        cases h
        exact ⟨_, .refl, hw, .inr hturn⟩

end Passes

/-- What a search that came to its end went through: the plan, the beginning, and the end, which a chain of turns leads to. -/
structure Completed (discovery : Discovery) (resources : Resources) (env : Environment) (plan : SearchPlan)
    (start finish : Progress) : Prop where
  /-- The plan is the one for the environment. -/
  plan_eq : discovery.plan env = .ok plan
  /-- The beginning is the one for the environment. -/
  start_eq : Progress.start env = .ok start
  /-- Turns lead from the beginning to the end. -/
  turns : ReflTransGen (Turn plan resources) start finish
  /-- At the end nothing waits. -/
  done : finish.waiting = []
  /-- The outcome is the one for the end. -/
  outcome_eq : discovery.run resources env =
    { result := .ok { loaded := finish.loaded.map (·.name), processed := finish.processed.names }
      environment := withDefaultsLast (withLoaded finish.environment finish.loaded)
      history := finish.history
      probed := finish.probed
      log := finish.log }

/-- A search that came to its end is completed from the beginning for its environment. -/
theorem run_eq_ok {discovery : Discovery} {env : Environment} {found : Discovered}
    (h : (discovery.run resources env).result = .ok found) :
    ∃ plan start finish, Completed discovery resources env plan start finish := by
  cases hplan : discovery.plan env with
  | error fault => simp [run, hplan] at h
  | ok plan =>
    cases hstart : Progress.start env with
    | error fault => simp [run, hplan, hstart] at h
    | ok start =>
      cases hrun : (passes plan resources discovery.passLimit discovery.passLimit).run.run start with
      | mk result finish =>
        cases result with
        | error error => simp [run, hplan, hstart, hrun] at h
        | ok =>
          obtain ⟨hturns, hdone⟩ := passes_ok hrun
          exact ⟨plan, start, finish, hplan, hstart, hturns, hdone, by simp only [run, hplan, hstart, hrun]⟩

/-- Placing a layer changes nothing in an environment but the layers. -/
theorem place_eq (hasDefaults : Bool) (env : Environment) (layer : Layer) :
    place hasDefaults env layer = { env with layers := (place hasDefaults env layer).layers } := by
  unfold place
  cases hasDefaults with
  | false => rfl
  | true =>
    simp only [if_true, Environment.addBefore?]
    split <;> rfl

/-- Putting layers into an environment leaves its profiles as they are. -/
theorem active_withLoaded (env : Environment) (loaded : List Layer) : (withLoaded env loaded).active = env.active := by
  have hfold : ∀ (layers : List Layer) (base : Environment) (hasDefaults : Bool),
      (layers.foldl (place hasDefaults) base).active = base.active := by
    intro layers base hasDefaults
    induction layers generalizing base with
    | nil => rfl
    | cons layer layers ih => rw [List.foldl_cons, ih, place_eq]
  exact hfold _ _ _

/-- The place of the layer of last resort does not matter to the active profiles. -/
theorem active_withDefaultsLast (env : Environment) : (withDefaultsLast env).active = env.active := by
  unfold withDefaultsLast
  split <;> rfl

section Completed

variable {discovery : Discovery} {env : Environment} {start finish : Progress}

/-- The active profiles of a run are those of its finish. -/
theorem Completed.active (h : Completed discovery resources env plan start finish) :
    (discovery.run resources env).environment.active = finish.environment.active := by
  rw [h.outcome_eq]
  exact (active_withDefaultsLast _).trans (active_withLoaded _ _)

/-- The milestones of a run are those up to its finish. -/
theorem Completed.history (h : Completed discovery resources env plan start finish) :
    (discovery.run resources env).history = finish.history := by
  rw [h.outcome_eq]

/-- What a search found is what its end says. -/
theorem Completed.found_eq {found : Discovered} (h : Completed discovery resources env plan start finish)
    (hfound : (discovery.run resources env).result = .ok found) :
    found.loaded = finish.loaded.map (·.name) ∧ found.processed = finish.processed.names := by
  rw [h.outcome_eq] at hfound
  cases hfound
  exact ⟨rfl, rfl⟩

end Completed

/-! ## Properties that hold at the end -/

/-- A property of a progress and the profile that the current pass is for is kept by a search: by its moves, and by the beginning and
the end of a pass. It speaks of searches whose pass for no profile has begun. -/
structure Kept (plan : SearchPlan) (resources : Resources) (I : Option String → Progress → Prop) : Prop where
  /-- Only passes for profiles wait. -/
  waiting : ∀ {p : Progress}, I none p → none ∉ p.waiting
  /-- Moves keep the property. -/
  move : ∀ {current : Option String} {p q : Progress}, Move plan resources p q → I current p → I current q
  /-- Skipping a profile keeps it. -/
  skip : ∀ {p : Progress} {profile : Profile} {rest : List (Option Profile)}, p.waiting = some profile :: rest →
    p.processed.contains profile.name = true → I none p → I none { p with waiting := rest }
  /-- The beginning of the pass for a profile keeps it. -/
  begin : ∀ {p : Progress} {profile : Profile} {rest : List (Option Profile)}, p.waiting = some profile :: rest →
    p.processed.contains profile.name = false → I none p → I (some profile.name) (beginning p profile rest)
  /-- The end of the pass for a profile keeps it. -/
  finish : ∀ {p : Progress} {profile : Profile}, I (some profile.name) p →
    I none { p with processed := p.processed.insert profile }

section Kept

variable {I : Option String → Progress → Prop} {p q : Progress}

/-- Two properties that are kept are kept together. -/
theorem Kept.and {J : Option String → Progress → Prop} (hI : Kept plan resources I) (hJ : Kept plan resources J) :
    Kept plan resources fun current p => I current p ∧ J current p where
  waiting h := hI.waiting h.1
  move hmove h := ⟨hI.move hmove h.1, hJ.move hmove h.2⟩
  skip hw hold h := ⟨hI.skip hw hold h.1, hJ.skip hw hold h.2⟩
  begin hw hnew h := ⟨hI.begin hw hnew h.1, hJ.begin hw hnew h.2⟩
  finish h := ⟨hI.finish h.1, hJ.finish h.2⟩

/-- Moves keep a property that is kept. -/
theorem Kept.moves (h : Kept plan resources I) {current : Option String} (hmoves : ReflTransGen (Move plan resources) p q)
    (hp : I current p) : I current q := by
  induction hmoves with
  | refl => exact hp
  | tail _ hmove ih => exact h.move hmove ih

/-- The visits of a pass keep a property that is kept, also where they fail. -/
theorem Kept.visits (h : Kept plan resources I) {current profile : Option String} {visits : List Visit}
    {result : Except ConfigError Unit} (hrun : (visits.forM (visit plan resources profile)).run.run p = (result, q))
    (hp : I current p) : I current q :=
  h.moves (moves_of_visits hrun) hp

/-- A turn keeps a property that is kept. -/
theorem Kept.turn (h : Kept plan resources I) (hturn : Turn plan resources p q) (hp : I none p) : I none q := by
  cases hturn with
  | unfiltered hw _ => exact absurd (hw ▸ List.mem_cons_self) (h.waiting hp)
  | skipped hw hold => exact h.skip hw hold hp
  | filtered hw hnew hrun => exact h.finish (h.visits hrun (h.begin hw hnew hp))

/-- The first turn makes the pass for no profile, and keeps a property that is kept. -/
theorem Kept.first (h : Kept plan resources I) {rest : List (Option Profile)} (hw : p.waiting = none :: rest)
    (hp : I none (({ p with waiting := rest } : Progress).reach (.pass none))) (hturn : Turn plan resources p q) : I none q := by
  cases hturn with
  | unfiltered hw' hrun =>
    rw [hw] at hw'
    cases hw'
    exact h.visits hrun hp
  | skipped hw' _ => rw [hw] at hw'; cases hw'
  | filtered hw' _ _ => rw [hw] at hw'; cases hw'

/-- A property that is kept, and holds when the pass for no profile begins, holds between the passes behind this one. -/
theorem Kept.turns (h : Kept plan resources I) {rest : List (Option Profile)} (hw : p.waiting = none :: rest)
    (hp : I none (({ p with waiting := rest } : Progress).reach (.pass none)))
    (hturns : ReflTransGen (Turn plan resources) p q) : q = p ∨ I none q := by
  induction hturns with
  | refl => exact .inl rfl
  | tail _ hturn ih =>
    rcases ih with rfl | hbetween
    · exact .inr (h.first hw hp hturn)
    · exact .inr (h.turn hturn hbetween)

/-- The loop from the beginning on, if it fails, does so where a property that is kept holds, and for a reason; or the number of passes is
at fault, between two of them or before the first. -/
theorem Kept.start_error (h : Kept plan resources I) {rest : List (Option Profile)} {limit left : Nat} {error : ConfigError}
    (hw : p.waiting = none :: rest) (hp : I none (({ p with waiting := rest } : Progress).reach (.pass none)))
    (hrun : (passes plan resources limit left).run.run p = (.error error, q)) :
    (error = { fault := .tooManyPasses limit } ∧ (q = p ∨ I none q)) ∨ ∃ current, I current q ∧ Fails plan resources q error := by
  obtain ⟨r, hturns, -, ⟨rfl, rfl⟩ | hturn⟩ := passes_error hrun
  · exact .inl ⟨rfl, h.turns hw hp hturns⟩
  · right
    rcases turn_error hturn with ⟨rest', hwaiting, hvisits⟩ | ⟨profile, rest', hwaiting, hnew, hvisits⟩
    · rcases h.turns hw hp hturns with rfl | hr
      · cases hw.symm.trans hwaiting
        exact ⟨none, h.visits hvisits hp, fails_of_visits hvisits⟩
      · exact absurd (hwaiting ▸ List.mem_cons_self) (h.waiting hr)
    · rcases h.turns hw hp hturns with rfl | hr
      · cases hw.symm.trans hwaiting
      · exact ⟨some profile.name, h.visits hvisits (h.begin hwaiting hnew hr), fails_of_visits hvisits⟩

/-- A property that is kept, and holds when the pass for no profile begins, holds at the end. -/
theorem Kept.run (h : Kept plan resources I) {rest : List (Option Profile)} (hw : p.waiting = none :: rest)
    (hp : I none (({ p with waiting := rest } : Progress).reach (.pass none)))
    (hturns : ReflTransGen (Turn plan resources) p q) (hdone : q.waiting = []) : I none q := by
  rcases h.turns hw hp hturns with rfl | hq
  · cases hdone.symm.trans hw
  · exact hq

/-- A property that is kept, and holds when the pass for no profile begins, holds at the end of a search that came to its end. -/
theorem Completed.kept {discovery : Discovery} {env : Environment} {start finish : Progress}
    (h : Completed discovery resources env plan start finish) (hkept : Kept plan resources I)
    (hstart : ∃ rest, start.waiting = none :: rest ∧ I none (({ start with waiting := rest } : Progress).reach (.pass none))) :
    I none finish := by
  obtain ⟨rest, hw, hbegin⟩ := hstart
  exact hkept.run hw hbegin h.turns h.done

end Kept

end Discovery

end Ignition
