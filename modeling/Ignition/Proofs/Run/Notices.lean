import Ignition.Proofs.Run.Failing

/-!
# Which notices a run gives

Every observer is given the notices of a run once each and in order: first that it begins, last that it is over, and in between those
for which the run came far enough (`Application.notices_of_run`). The answers of observers do not matter before the end: a run goes as
it does when they grant everything (`Application.obliging`).
-/

namespace Ignition

variable {σ : Type}

/-- What is kept is the same but for the log. -/
theorem World.eq_but_log {world other : World σ} (hstate : world.state = other.state) (hsteps : world.steps = other.steps)
    (hfailures : world.failures = other.failures) (hsuppressor : world.suppressor = other.suppressor) :
    { world with log := [] } = { other with log := [] } := by
  rw [World.mk.injEq]
  exact ⟨hstate, rfl, hsteps, hfailures, hsuppressor⟩

/-! ## Observers who grant everything -/

/-- The same call, but it does not fail. -/
def Action.granting (action : Action σ (Except Failure Unit)) : Action σ (Except Failure Unit) := fun state =>
  (.ok (), (action state).2)

/-- The observer that does the same, but does not fail before the end of the run. -/
def Observer.obliging (observer : Observer σ) : Observer σ :=
  { observer with
    starting := fun args sources => (observer.starting args sources).granting
    environmentPrepared := fun env state =>
      (((observer.environmentPrepared env state).1.1, .ok ()), (observer.environmentPrepared env state).2)
    contextPrepared := fun container => (observer.contextPrepared container).granting
    contextLoaded := fun container => (observer.contextLoaded container).granting }

/-- The application whose observers do the same, but do not fail before the end of the run. -/
def Application.obliging (app : Application σ) : Application σ :=
  { app with observers := app.observers.map Observer.obliging }

namespace Observer

/-- Obliging observers are notified as the others are. -/
theorem round_obliging (notice : Notice) (observers : List (Observer σ)) :
    round notice (observers.map obliging) = round notice observers :=
  List.map_map

/-- Where what becomes of the state is the same, so are the deeds. -/
theorem told_map_obliging (notice : Notice) (act : Observer σ → Action σ (Except Failure Unit)) (observers : List (Observer σ))
    (hact : ∀ observer state, (act observer.obliging state).2.1 = (act observer state).2.1) :
    told notice act (observers.map obliging) = told notice act observers := by
  rw [told, List.map_map, told]
  refine List.map_congr_left fun observer _ => ?_
  simp only [Function.comp_apply, Deed.ofAction, hact]
  rfl

/-- Obliging observers pass the environment on as the others do. -/
theorem adjust_obliging (observers : List (Observer σ)) (env : Environment) (state : σ) :
    adjust (observers.map obliging) env state = adjust observers env state := by
  induction observers generalizing env state with
  | nil => rfl
  | cons observer rest ih => exact ih _ _

/-- Obliging observers of the end change no error. -/
theorem promoted_obliging (container : Option (Container σ)) (observers : List (Observer σ)) (state : σ) :
    promoted? container (observers.map obliging) state = promoted? container observers state := by
  induction observers generalizing state with
  | nil => rfl
  | cons observer rest ih =>
    simp only [List.map_cons, promoted?, ih]
    rfl

end Observer

/-- The notifications before a stage begin with the one of the start, and go on with some of those of the preparation in order. -/
theorem Stage.notices_eq (stage : Stage σ) : ∃ between, stage.notices = .starting :: between ∧
    between <+: [.environmentPrepared, .contextPrepared, .contextLoaded] ∧
    (.environmentPrepared ∈ between ↔ stage.left ≤ 5) ∧ (.contextPrepared ∈ between ↔ stage.left ≤ 3) ∧
    (.contextLoaded ∈ between ↔ stage.left ≤ 2) := by
  cases stage <;> exact ⟨_, rfl, ⟨_, rfl⟩, by simp, by simp, by simp⟩

namespace Application

variable {app : Application σ} {args : List String} {start : σ} {stage : Stage σ} {has : Option (Container σ)}
variable {steps : List Step} {state : σ} {error : RunError}

/-- Obliging observers come in the same order. -/
theorem inOrder_obliging (app : Application σ) : app.obliging.inOrder = app.inOrder.map Observer.obliging := by
  rw [inOrder, inOrder, obliging, Observer.inOrder, Observer.inOrder, byPriority, byPriority]
  refine (List.map_mergeSort ?_).symm
  exact fun _ _ _ _ => rfl

/-- Obliging observers do the same when they are told of a stage. -/
theorem told_obliging (app : Application σ) (stage : Stage σ) : app.obliging.told stage = app.told stage := by
  cases stage with
  | created =>
    rw [told, inOrder_obliging]
    exact Observer.told_map_obliging _ _ _ fun _ _ => rfl
  | prepared =>
    rw [told, inOrder_obliging]
    exact Observer.told_map_obliging _ _ _ fun _ _ => rfl
  | _ => rfl

/-- And when they are told of the end. -/
theorem toldFinished_obliging (app : Application σ) (container : Container σ) :
    app.obliging.toldFinished container = app.toldFinished container := by
  rw [toldFinished, inOrder_obliging]
  exact Observer.told_map_obliging _ _ _ fun _ _ => rfl

/-- A run with obliging observers begins alike. -/
theorem begun_obliging (app : Application σ) (args : List String) (start : σ) :
    app.obliging.begun args start = app.begun args start := by
  rw [Application.begun, inOrder_obliging, Observer.told_map_obliging _ _ _ fun _ _ => rfl]
  rfl

/-- Its stages demand the same. -/
theorem demands_obliging (app : Application σ) (state : σ) (stage : Stage σ) :
    app.obliging.demands state stage = app.demands state stage := by
  cases stage <;> rfl

/-- The same stages are reached when observers grant everything. -/
theorem Reaches.obliging (h : app.Reaches args start stage steps state) : app.obliging.Reaches args start stage steps state := by
  induction h with
  | begun =>
    rw [← begun_obliging, ← Observer.round_obliging, ← inOrder_obliging]
    exact .begun
  | configured _ hconfiguration hadjust ih =>
    rw [← Observer.round_obliging, ← inOrder_obliging]
    rw [← Observer.adjust_obliging, ← inOrder_obliging] at hadjust
    exact ih.configured hconfiguration hadjust
  | created _ hfactory ih => exact ih.created hfactory
  | @next stage next _ state _ _ hnext hmet ih =>
    rw [← told_obliging, ← demands_obliging]
    rw [← demands_obliging] at hmet
    exact ih.next hnext hmet

/-- A run breaks off in the same way when observers grant everything. -/
theorem BreaksOff.obliging (h : app.BreaksOff args start error has steps state) :
    app.obliging.BreaksOff args start error has steps state := by
  cases h with
  | configuring hreaches hconfiguration => exact .configuring hreaches.obliging hconfiguration
  | creating hreaches hfactory => exact .creating hreaches.obliging hfactory
  | refused hreaches hrefused =>
    rw [← demands_obliging] at hrefused
    exact .refused hreaches.obliging hrefused
  | finishing hreaches hpromoted =>
    rw [← Observer.promoted_obliging, ← inOrder_obliging] at hpromoted
    rw [← toldFinished_obliging]
    exact .finishing hreaches.obliging hpromoted

/-- It takes leave of an error in the same way. -/
theorem farewell_obliging (app : Application σ) (error : RunError) (notified : Bool) (has : Option (Container σ)) :
    app.obliging.farewell error notified has = app.farewell error notified has := by
  rw [farewell, inOrder_obliging, Observer.told_map_obliging _ _ _ fun _ _ => rfl, farewell]

/-- And it leaves the same state after one. -/
theorem aftermath_obliging (app : Application σ) (error : RunError) (notified : Bool) (has : Option (Container σ)) (state : σ) :
    app.obliging.aftermath error notified has state = app.aftermath error notified has state := by
  rw [aftermath, farewell_obliging]
  rfl

/-- A run answers the same, and leaves the same but for the log, when observers grant everything. -/
theorem run_obliging (app : Application σ) (args : List String) (world : World σ) :
    (app.obliging.run args world).1 = (app.run args world).1 ∧
      { (app.obliging.run args world).2 with log := [] } = { (app.run args world).2 with log := [] } := by
  rcases app.breaksOff_or_succeeds args world.state with
    ⟨error, has, before, state, hbreak⟩ | ⟨arguments, env, container, steps, state, hserved, hpromoted⟩
  · obtain ⟨failure, after, hrun, hdealt⟩ := hbreak.dealtWith
    obtain ⟨failure', after', hrun', hdealt'⟩ := hbreak.obliging.dealtWith
    obtain rfl : failure' = failure := hdealt'.failure_eq.trans hdealt.failure_eq.symm
    rw [hrun, hrun']
    refine ⟨rfl, World.eq_but_log ?_ ?_ ?_ ?_⟩
    · rw [hdealt'.state_eq, aftermath_obliging, hdealt.state_eq]
    · rw [hdealt'.steps_eq, aftermath_obliging, hdealt.steps_eq]
    · rw [hdealt'.failures_eq, hdealt.failures_eq]
    · rw [hdealt'.suppressor_eq, hdealt.suppressor_eq]
      rfl
  · obtain ⟨after, hrun, hleads⟩ := hserved.run hpromoted
    rw [← Observer.promoted_obliging, ← inOrder_obliging] at hpromoted
    obtain ⟨after', hrun', hleads'⟩ := hserved.obliging.run hpromoted
    rw [toldFinished_obliging] at hleads'
    rw [hrun, hrun']
    refine ⟨rfl, World.eq_but_log ?_ ?_ ?_ ?_⟩
    · rw [hleads'.state_eq, hleads.state_eq]
    · rw [hleads'.steps_eq, hleads.steps_eq]
    · rw [hleads'.failures_eq, hleads.failures_eq]
    · rw [hleads'.suppressor_eq, hleads.suppressor_eq]

/-! ## Which stages are reached -/

section

variable {last : Stage σ} (hreaches : app.Reaches args start last steps state) (hlast : app.IsLast args start last)

include hreaches hlast

/-- The environment is prepared exactly in the runs that come that far. -/
theorem configuration_iff : (∃ found, app.configuration args (app.begun args start) = .ok found) ↔ last.left ≤ 5 := by
  constructor
  · rintro ⟨⟨arguments, found⟩, hconfiguration⟩
    exact hlast _ _ _ (Reaches.begun.configured hconfiguration rfl)
  · intro hle
    obtain ⟨stage, _, _, hstage, hleft⟩ := hreaches.earlier (5 - last.left) (by omega)
    rw [Nat.add_sub_cancel' hle] at hleft
    match stage, hleft, hstage with
    | .configured .., _, .configured hbegun hconfiguration _ =>
      obtain ⟨-, -, rfl⟩ := hbegun.unique .begun rfl
      exact ⟨_, hconfiguration⟩

/-- The container is prepared exactly in the runs that come that far. -/
theorem prepared_iff :
    (∃ arguments env container steps state, app.Reaches args start (.prepared arguments env container) steps state) ↔
      last.left ≤ 3 := by
  constructor
  · rintro ⟨_, _, _, _, _, h⟩
    exact hlast _ _ _ h
  · intro hle
    obtain ⟨stage, _, _, hstage, hleft⟩ := hreaches.earlier (3 - last.left) (by omega)
    rw [Nat.add_sub_cancel' hle] at hleft
    match stage, hleft with
    | .prepared .., _ => exact ⟨_, _, _, _, _, hstage⟩

/-- The container is filled exactly in the runs that come that far. -/
theorem filled_iff :
    (∃ arguments env container steps state, app.Reaches args start (.filled arguments env container) steps state) ↔
      last.left ≤ 2 := by
  constructor
  · rintro ⟨_, _, _, _, _, h⟩
    exact hlast _ _ _ h
  · intro hle
    obtain ⟨stage, _, _, hstage, hleft⟩ := hreaches.earlier (2 - last.left) (by omega)
    rw [Nat.add_sub_cancel' hle] at hleft
    match stage, hleft with
    | .filled .., _ => exact ⟨_, _, _, _, _, hstage⟩

/-- The runners have been called exactly in the runs with nothing left to do. -/
theorem served_iff :
    (∃ arguments env container steps state, app.Reaches args start (.served arguments env container) steps state) ↔
      last.left = 0 := by
  constructor
  · rintro ⟨_, _, _, _, _, h⟩
    exact Nat.le_zero.mp (hlast _ _ _ h)
  · intro hleft
    match last, hleft with
    | .served .., _ => exact ⟨_, _, _, _, _, hreaches⟩

end

/-- What a run tells its observers besides that it begins: how far it comes, and then that it is over. -/
structure Announces (app : Application σ) (args : List String) (world : World σ) (between : List Notice) (failed : Bool) : Prop where
  /-- How far it comes is told in the order of the phases. -/
  order : between <+: [.environmentPrepared, .contextPrepared, .contextLoaded]
  /-- The environment is known exactly if the configuration was put together. -/
  configured : .environmentPrepared ∈ between ↔ ∃ found, app.configuration args (app.begun args world.state) = .ok found
  /-- The container is prepared exactly if it was made and all initializers succeeded. -/
  prepared : .contextPrepared ∈ between ↔
    ∃ arguments env container steps state, app.Reaches args world.state (.prepared arguments env container) steps state
  /-- The container is filled exactly if it took both singletons and the sources. -/
  filled : .contextLoaded ∈ between ↔
    ∃ arguments env container steps state, app.Reaches args world.state (.filled arguments env container) steps state
  /-- The run is over as a failure exactly if it failed and its runners did not get done. -/
  failure : failed = true ↔ (∃ failure, (app.run args world).1 = .error failure) ∧
    ¬ ∃ arguments env container steps state, app.Reaches args world.state (.served arguments env container) steps state

/-- A run announces the notices of its last stage. -/
theorem Reaches.announces {last : Stage σ} {world : World σ} {failed : Bool} (h : app.Reaches args world.state last steps state)
    (hlast : app.IsLast args world.state last)
    (hfailed : failed = true ↔ (∃ failure, (app.run args world).1 = .error failure) ∧ last.left ≠ 0) :
    ∃ between, last.notices = .starting :: between ∧ app.Announces args world between failed := by
  obtain ⟨between, heq, hprefix, hconfigured, hprepared, hfilled⟩ := last.notices_eq
  refine ⟨between, heq, hprefix, ?_, ?_, ?_, ?_⟩
  · rw [hconfigured, configuration_iff h hlast]
  · rw [hprepared, prepared_iff h hlast]
  · rw [hfilled, filled_iff h hlast]
  · rw [hfailed, served_iff h hlast]

/-- Notifications behind others are spread to the observers behind them. -/
theorem spread_append (app : Application σ) (notices more : List Notice) :
    app.spread (notices ++ more) = app.spread notices ++ app.spread more :=
  List.flatMap_append

/-- After a failure observers are told that the run is over, unless they know. -/
theorem notices_aftermath (app : Application σ) (error : RunError) (notified : Bool) (has : Option (Container σ)) (state : σ) :
    Step.notices (Deed.steps (app.aftermath error notified has state)) =
      app.spread (if notified then [] else [.finished true]) := by
  have hpublished (published : Prop) [Decidable published] (code : Int) :
      Step.notices (if published then [.published code] else []) = [] := by
    split <;> rfl
  have hclosed (closed : Prop) [Decidable closed] : Step.notices (if closed then [.closed] else []) = [] := by
    split <;> rfl
  rw [steps_aftermath]
  cases notified <;> simp [hpublished, hclosed, spread]

/-- What a run did, told by its last stage: the notices of the stage, and then the one that the run is over. -/
theorem notices_of_last_stage (app : Application σ) (args : List String) (world : World σ) :
    ∃ last before place steps failed,
      app.Reaches args world.state last before place ∧ app.IsLast args world.state last ∧
      (app.run args world).2.steps = world.steps ++ steps ∧
      Step.notices steps = app.spread (last.notices ++ [.finished failed]) ∧
      (failed = true ↔ (∃ failure, (app.run args world).1 = .error failure) ∧ last.left ≠ 0) := by
  rcases app.breaksOff_or_succeeds args world.state with
    ⟨error, has, _, state, hbreak⟩ | ⟨arguments, env, container, steps, state, hserved, hpromoted⟩
  · obtain ⟨failure, after, hrun, hdealt⟩ := hbreak.dealtWith
    obtain ⟨last, before, behind, place, rfl, hreaches, -, hbehind, hfinished, hlast⟩ := hbreak.last_stage
    refine ⟨last, before, place, before ++ behind ++
      Deed.steps (app.aftermath error (error.phase? = some .finished) has state), decide (error.phase? ≠ some .finished),
      hreaches, hlast, ?_, ?_, ?_⟩
    · rw [hrun, hdealt.steps_eq, List.append_assoc]
    · rw [Step.notices_append, Step.notices_append, hreaches.notices, hbehind, notices_aftermath, List.append_assoc,
        ← spread_append, ← spread_append]
      by_cases hphase : error.phase? = some .finished <;> simp [hphase]
    · simp [hrun, hfinished]
  · obtain ⟨after, hrun, hleads⟩ := hserved.run hpromoted
    refine ⟨_, steps, state, _, false, hserved, fun _ _ _ _ => Nat.zero_le _, by rw [hrun]; exact hleads.steps_eq, ?_, by simp⟩
    simp [hserved.notices, toldFinished, spread]

/-- The notices of a run. Every observer is given each of them once, in order: that the run begins; that the environment is known,
exactly if the configuration was put together; that the container is prepared, exactly if it was made and all initializers succeeded;
that it is filled, exactly if it took both singletons and the sources; and that the run is over, as a failure exactly if it failed and
its runners did not get done. What observers answer to the first four changes neither the result nor anything but the log. An error
belongs to the phase that was entered last when the run broke off with it, and is never about the order of phases. -/
theorem notices_of_run (app : Application σ) (args : List String) (world : World σ) :
    app.inOrder.Perm app.observers ∧
      (∃ steps between failed,
        (app.run args world).2.steps = world.steps ++ steps ∧
        Step.notices steps = app.spread ([.starting] ++ between ++ [.finished failed]) ∧
        between <+: [.environmentPrepared, .contextPrepared, .contextLoaded] ∧
        (.environmentPrepared ∈ between ↔ ∃ found, app.configuration args (app.begun args world.state) = .ok found) ∧
        (.contextPrepared ∈ between ↔
          ∃ arguments env container steps state, app.Reaches args world.state (.prepared arguments env container) steps state) ∧
        (.contextLoaded ∈ between ↔
          ∃ arguments env container steps state, app.Reaches args world.state (.filled arguments env container) steps state) ∧
        (failed = true ↔ (∃ failure, (app.run args world).1 = .error failure) ∧
          ¬ ∃ arguments env container steps state, app.Reaches args world.state (.served arguments env container) steps state)) ∧
      ((app.obliging.run args world).1 = (app.run args world).1 ∧
        { (app.obliging.run args world).2 with log := [] } = { (app.run args world).2 with log := [] }) ∧
      (match (app.run args world).1 with
        | .ok _ => True
        | .error failure => ∃ has before state phase,
            app.BreaksOff args world.state failure.error has before state ∧
            world.steps ++ before <+: (app.run args world).2.steps ∧
            failure.error.phase? = some phase ∧ (Step.phases before).getLast? = some phase ∧
            ∀ current next, failure.error.fault ≠ .phaseOrder current next) := by
  refine ⟨List.mergeSort_perm .., ?_, app.run_obliging args world, ?_⟩
  · obtain ⟨last, before, place, steps, failed, hreaches, hlast, hsteps, hnotices, hfailed⟩ :=
      app.notices_of_last_stage args world
    obtain ⟨between, heq, hgiven⟩ := hreaches.announces hlast hfailed
    rw [heq] at hnotices
    exact ⟨steps, between, failed, hsteps, hnotices, hgiven.order, hgiven.configured, hgiven.prepared, hgiven.filled, hgiven.failure⟩
  · rcases app.breaksOff_or_succeeds args world.state with
      ⟨error, has, before, state, hbreak⟩ | ⟨arguments, env, container, steps, state, hserved, hpromoted⟩
    · obtain ⟨failure, after, hrun, hdealt⟩ := hbreak.dealtWith
      obtain ⟨phase, hphase, hlast⟩ := hbreak.phases
      rw [hrun]
      obtain rfl : error = failure.error := by rw [hdealt.failure_eq]
      refine ⟨has, before, state, phase, hbreak, ?_, hphase, hlast, fun current next hfault => ?_⟩
      · rw [hdealt.steps_eq]
        exact List.prefix_append ..
      · rw [RunError.phase?, hfault] at hphase
        nomatch hphase
    · obtain ⟨after, hrun, -⟩ := hserved.run hpromoted
      rw [hrun]
      trivial

end Application

end Ignition
