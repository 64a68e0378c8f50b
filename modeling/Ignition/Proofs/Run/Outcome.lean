import Ignition.Proofs.Run.Course

/-!
# What becomes of a run

The phases of a run do what its course says. From each stage on a run does the rest (`Reaches.drive`), so one that breaks off has its
failure dealt with where it broke off (`BreaksOff.run`), and one whose runners are done and with whose end no observer finds fault
succeeds (`Reaches.run`).
-/

namespace Ignition

namespace Application

variable {σ α : Type}
variable {app : Application σ} {args : List String} {origin : World σ} {boot : Bootstrap σ}
variable {arguments : Arguments} {env : Environment} {container : Container σ} {stage stage' : Stage σ}
variable {phase : Option Phase} {has : Option (Container σ)} {steps more : List Step} {state last : σ} {error : RunError}

/-! ## What each part comes to -/

/-- Observers are told. -/
theorem yields_told {notice : Notice} {act : Observer σ → Action σ (Except Failure Unit)}
    (h : Bootstrap.At origin phase has steps state boot) :
    (Booting.within (Observer.notify notice act app.inOrder)).Yields boot (.ok ())
      (Bootstrap.At origin phase has (steps ++ Deed.steps (Observer.told notice act app.inOrder))
        (Deed.leave (Observer.told notice act app.inOrder) state)) :=
  Booting.yields_deeds h (Observer.does_notify notice act app.inOrder)

/-- Observers are told of the environment. -/
theorem yields_adjusted {found : Environment} (h : Bootstrap.At origin phase has steps state boot)
    (hadjust : Observer.adjust app.inOrder found state = (env, last)) :
    (Booting.within (Observer.notifyEnvironmentPrepared found app.inOrder)).Yields boot (.ok env)
      (Bootstrap.At origin phase has (steps ++ Observer.round .environmentPrepared app.inOrder) last) := by
  obtain ⟨hanswer, hleads⟩ := Observer.run_notifyEnvironmentPrepared found app.inOrder boot.world
  rw [h.leads.state_eq, hadjust] at hanswer hleads
  have hyields := Booting.yields_within h hleads
  rwa [show _ = env from hanswer] at hyields

/-- Nothing depends on whether an event is told. -/
theorem yields_tell_if {tells : Bool} {event : LogEvent} {next : Booting σ α} {result : Except RunError α}
    {there : Bootstrap σ → Prop} (h : Bootstrap.At origin phase has steps state boot)
    (hnext : ∀ after, Bootstrap.At origin phase has steps state after → next.Yields after result there) :
    Booting.Yields (if tells then (do Booting.tell event; next) else next) boot result there := by
  cases tells with
  | true => exact (Booting.yields_tell h).bind hnext
  | false => exact hnext boot h

/-- Events in the log leave the place where a run is. -/
theorem yields_tell_all {events : List LogEvent} (h : Bootstrap.At origin phase has steps state boot) :
    (events.forM Booting.tell).Yields boot (.ok ()) (Bootstrap.At origin phase has steps state) := by
  induction events generalizing boot with
  | nil => exact .pure () h
  | cons event rest ih => exact (Booting.yields_tell h).bind fun _ hafter => ih hafter

/-- The start of a run is noted and told to the observers. -/
theorem yields_start (h : Bootstrap.At origin none has steps state boot) :
    (app.start args).Yields boot (.ok ())
      (Bootstrap.At origin (some .starting) has (steps ++ [.entered .starting] ++ Observer.round .starting app.inOrder)
        (app.begun args state)) := by
  rw [← Observer.steps_told]
  exact (Booting.yields_enter h rfl).bind fun _ hafter => yields_tell_if hafter fun _ hafter => yields_told hafter

/-- An environment that could be prepared goes from one observer to the next. -/
theorem yields_configure {found : Environment} (h : Bootstrap.At origin (some .starting) has steps state boot)
    (hconfiguration : app.configuration args state = .ok (arguments, found))
    (hadjust : Observer.adjust app.inOrder found state = (env, last)) :
    (app.configure args).Yields boot (.ok (arguments, env))
      (Bootstrap.At origin (some .environmentPrepared) has
        (steps ++ [.entered .environmentPrepared] ++ Observer.round .environmentPrepared app.inOrder) last) := by
  obtain ⟨searched, result, hsearch, hresult, rfl⟩ := configuration_eq_ok hconfiguration
  refine (Booting.yields_enter h rfl).bind fun after hafter => ?_
  simp only [prepareEnvironment, hsearch]
  refine (Booting.yields_look hafter).bind fun after hafter => (yields_tell_all hafter).bind fun after hafter => ?_
  simp only [hresult]
  refine (Booting.yields_tell hafter).bind fun after hafter => ?_
  exact (yields_adjusted hafter hadjust).bind fun after hafter => .pure _ hafter

/-- An environment that could not be prepared ends the run, as one of its faults. -/
theorem yields_configure_error {fault : ConfigError} (h : Bootstrap.At origin (some .starting) has steps state boot)
    (hconfiguration : app.configuration args state = .error fault) :
    (app.configure args).Yields boot (.error (RunError.because .environment fault.failure))
      (Bootstrap.At origin (some .environmentPrepared) has (steps ++ [.entered .environmentPrepared]) state) := by
  refine (Booting.yields_enter h rfl).bind fun after hafter => ?_
  rcases configuration_eq_error hconfiguration with hsearch | ⟨arguments, searched, hsearch, hresult⟩
  · simp only [prepareEnvironment, hsearch]
    exact ⟨after, rfl, hafter⟩
  · simp only [prepareEnvironment, hsearch]
    refine (Booting.yields_look hafter).bind fun after hafter => (yields_tell_all hafter).bind fun after hafter => ?_
    simp only [hresult]
    exact ⟨after, rfl, hafter⟩

/-- A container that could be made is the container of the run. -/
theorem yields_createContainer {told : List LogRecord} (h : Bootstrap.At origin (some .environmentPrepared) has steps state boot)
    (hfactory : app.factory env state = (.ok container, last, told)) :
    (app.createContainer env).Yields boot (.ok container)
      (Bootstrap.At origin (some .contextPrepared) (some container)
        (steps ++ [.entered .contextPrepared] ++ [.created]) last) := by
  refine (Booting.yields_enter h rfl).bind fun after hafter => (Booting.yields_demand hafter hfactory).bind fun after hafter => ?_
  exact ⟨{ after with container := some container }, rfl, hafter.phase_eq, rfl, hafter.leads⟩

/-- A container that could not be made ends the run. -/
theorem yields_createContainer_error {failure : Failure} {told : List LogRecord}
    (h : Bootstrap.At origin (some .environmentPrepared) has steps state boot)
    (hfactory : app.factory env state = (.error failure, last, told)) :
    (app.createContainer env).Yields boot (.error (RunError.because .container failure))
      (Bootstrap.At origin (some .contextPrepared) has (steps ++ [.entered .contextPrepared] ++ [.created]) last) :=
  (Booting.yields_enter h rfl).bind fun _ hafter => (Booting.yields_demand_error hafter hfactory).bind_error

/-- What is done at a stage with a container: its demands are made, and perhaps observers are told. -/
def work (app : Application σ) : Stage σ → Booting σ Unit
  | .created _ env container => app.prepareContainer container env
  | .prepared arguments env container => app.fillContainer container arguments env
  | .filled _ _ container => app.activateContainer container
  | .activated arguments _ container => serve container arguments
  | .begun | .configured .. | .served .. => pure ()

/-- A stage whose demands are met leads to the next one, of which the observers are told. -/
theorem yields_work (h : Bootstrap.At origin (some stage.phase) has steps state boot) (hnext : stage.next? = some stage')
    (hmet : Demand.Met (app.demands state stage) state last) :
    (app.work stage).Yields boot (.ok ())
      (Bootstrap.At origin (some stage'.phase) has
        (steps ++ stage.entry ++ Demand.steps (app.demands state stage) ++ Deed.steps (app.told stage))
        (Deed.leave (app.told stage) last)) := by
  cases stage with
  | begun | configured | served => nomatch hnext
  | created arguments env container =>
    obtain rfl := Option.some.inj hnext
    rw [Stage.entry, List.append_nil]
    exact ((makes_callInitializers container app.initializers).met h hmet).bind fun _ hafter =>
      yields_tell_if hafter fun _ hafter => yields_told hafter
  | prepared arguments env container =>
    obtain rfl := Option.some.inj hnext
    exact (Booting.yields_enter h rfl).bind fun _ hafter =>
      ((makes_loadContainer container arguments env app.sources).met hafter hmet).bind fun _ hafter => yields_told hafter
  | filled arguments env container =>
    obtain rfl := Option.some.inj hnext
    rw [told, Deed.steps_nil, List.append_nil]
    exact (Booting.yields_enter h rfl).bind fun _ hafter => (makes_activation container app.shutdownHook).met hafter hmet
  | activated arguments env container =>
    obtain rfl := Option.some.inj hnext
    rw [told, Deed.steps_nil, List.append_nil]
    refine (Booting.yields_enter h rfl).bind fun after hafter => (Booting.yields_look hafter).bind fun after hafter => ?_
    exact (makes_callRunners arguments _).met hafter hmet

/-- A stage with a demand that is refused ends at this demand. -/
theorem yields_work_error (h : Bootstrap.At origin (some stage.phase) has steps state boot)
    (hrefused : Demand.Refused (app.demands state stage) state error more last) :
    (app.work stage).Yields boot (.error error) (Bootstrap.At origin error.phase? has (steps ++ stage.entry ++ more) last) := by
  obtain ⟨next, hnext, hphase⟩ := phase_of_refused hrefused
  rw [hphase]
  cases stage with
  | begun | configured | served => nomatch hnext
  | created arguments env container =>
    obtain rfl := Option.some.inj hnext
    rw [Stage.entry, List.append_nil]
    exact ((makes_callInitializers container app.initializers).refused h hrefused).bind_error
  | prepared arguments env container =>
    obtain rfl := Option.some.inj hnext
    exact (Booting.yields_enter h rfl).bind fun _ hafter =>
      ((makes_loadContainer container arguments env app.sources).refused hafter hrefused).bind_error
  | filled arguments env container =>
    obtain rfl := Option.some.inj hnext
    exact (Booting.yields_enter h rfl).bind fun _ hafter => (makes_activation container app.shutdownHook).refused hafter hrefused
  | activated arguments env container =>
    obtain rfl := Option.some.inj hnext
    refine (Booting.yields_enter h rfl).bind fun after hafter => (Booting.yields_look hafter).bind fun after hafter => ?_
    exact (makes_callRunners arguments _).refused hafter hrefused

/-- The observers are told of the end, and the first of them that fails decides what becomes of the run. -/
theorem yields_finish (h : Bootstrap.At origin (some .runners) has steps state boot) :
    (app.finish container).Yields boot (.ok (Observer.promoted? (some container) app.inOrder state))
      (Bootstrap.At origin (some .finished) has
        (steps ++ [.entered .finished] ++ Deed.steps (app.toldFinished container))
        (Deed.leave (app.toldFinished container) state)) := by
  have htold {after : Bootstrap σ}
      (hafter : Bootstrap.At origin (some .finished) has (steps ++ [.entered .finished]) state after) :
      (Booting.within (Observer.notifyFinished (some container) none app.inOrder)).Yields after
        (.ok (Observer.promoted? (some container) app.inOrder state))
        (Bootstrap.At origin (some .finished) has
          (steps ++ [.entered .finished] ++ Deed.steps (app.toldFinished container))
          (Deed.leave (app.toldFinished container) state)) := by
    have hyields := Booting.yields_within hafter (Observer.does_notifyFinished (some container) none app.inOrder after.world)
    rw [Observer.notifyFinished_answer, hafter.leads.state_eq] at hyields
    exact hyields
  refine (Booting.yields_enter h rfl).bind fun after hafter => ?_
  split
  · exact (Booting.yields_look hafter).bind fun _ hafter => (Booting.yields_tell hafter).bind fun _ hafter => htold hafter
  · exact htold hafter

/-! ## The phases one after the other -/

/-- What is done from a stage on, up to the last phase but one. -/
def onward (app : Application σ) (args : List String) : Stage σ → Booting σ (Container σ)
  | .begun => do
    let (arguments, env) ← app.configure args
    app.onward args (.configured arguments env)
  | .configured arguments env => do
    let container ← app.createContainer env
    app.onward args (.created arguments env container)
  | .created arguments env container => do
    app.work (.created arguments env container)
    app.onward args (.prepared arguments env container)
  | .prepared arguments env container => do
    app.work (.prepared arguments env container)
    app.onward args (.filled arguments env container)
  | .filled arguments env container => do
    app.work (.filled arguments env container)
    app.onward args (.activated arguments env container)
  | .activated arguments env container => do
    app.work (.activated arguments env container)
    app.onward args (.served arguments env container)
  | .served _ _ container => return container
termination_by stage => stage.left
decreasing_by all_goals simp

/-- A run is its start and then one stage after the other. -/
theorem drive_eq : app.drive args = (do app.start args; app.onward args .begun) := by
  simp only [drive, onward, work]

/-- A stage is worked off, and then the next one. -/
theorem onward_of_next (h : stage.next? = some stage') :
    app.onward args stage = (do app.work stage; app.onward args stage') := by
  cases stage <;> cases h <;> rw [onward]

/-- The last stage leaves the container. -/
theorem onward_served : app.onward args (.served arguments env container) = pure container := by
  rw [onward]

/-- A run that reaches a stage goes on from there. -/
theorem Reaches.drive {result : Except RunError (Container σ)} {there : Bootstrap σ → Prop}
    (h : app.Reaches args origin.state stage steps state)
    (hrest : ∀ boot, Bootstrap.At origin (some stage.phase) stage.container? steps state boot →
      (app.onward args stage).Yields boot result there) :
    (app.drive args).Yields { world := origin } result there := by
  induction h with
  | begun =>
    rw [drive_eq]
    exact (yields_start ⟨rfl, rfl, .refl origin⟩).bind hrest
  | configured _ hconfiguration hadjust ih =>
    refine ih fun boot hat => ?_
    rw [onward]
    exact (yields_configure hat hconfiguration hadjust).bind hrest
  | created _ hfactory ih =>
    refine ih fun boot hat => ?_
    rw [onward]
    exact (yields_createContainer hat hfactory).bind hrest
  | next _ hnext hmet ih =>
    refine ih fun boot hat => ?_
    rw [onward_of_next hnext]
    refine (yields_work hat hnext hmet).bind fun after hafter => hrest after ?_
    rwa [Stage.container?_of_next hnext]

/-- A run that breaks off before its end does so in the phase that the error belongs to. -/
theorem BreaksOff.drive (h : app.BreaksOff args origin.state error has steps state) (hphase : error.phase? ≠ some .finished) :
    (app.drive args).Yields { world := origin } (.error error) (Bootstrap.At origin error.phase? has steps state) := by
  cases h with
  | configuring hreaches hconfiguration =>
    refine hreaches.drive fun boot hat => ?_
    rw [onward]
    exact (yields_configure_error hat hconfiguration).bind_error
  | creating hreaches hfactory =>
    refine hreaches.drive fun boot hat => ?_
    rw [onward]
    exact (yields_createContainer_error hat hfactory).bind_error
  | refused hreaches hrefused =>
    obtain ⟨next, hnext, -⟩ := phase_of_refused hrefused
    refine hreaches.drive fun boot hat => ?_
    rw [onward_of_next hnext]
    exact (yields_work_error hat hrefused).bind_error
  | finishing _ hpromoted => exact absurd (Observer.phase_of_promoted hpromoted) hphase

/-- A run whose runners are done tells the observers that it is over. -/
theorem Reaches.finish (h : app.Reaches args origin.state (.served arguments env container) steps state) :
    ∃ boot after, (app.drive args).run.run { world := origin } = (.ok container, boot) ∧
      (app.finish container).run.run boot = (.ok (Observer.promoted? (some container) app.inOrder state), after) ∧
      Bootstrap.At origin (some .finished) (some container) (steps ++ [.entered .finished] ++ Deed.steps (app.toldFinished container))
        (Deed.leave (app.toldFinished container) state) after := by
  obtain ⟨boot, hdrive, hat⟩ := h.drive fun boot hat => onward_served ▸ Booting.Yields.pure container hat
  obtain ⟨after, hfinish, hafter⟩ := yields_finish hat
  exact ⟨boot, after, hdrive, hfinish, hafter⟩

/-! ## Whole runs -/

/-- A run whose failure is dealt with. -/
def failed (app : Application σ) (error : RunError) (notified : Bool) (boot : Bootstrap σ) :
    Except RunFailure (Container σ) × World σ :=
  (.error ((app.fail error notified).run boot).1, ((app.fail error notified).run boot).2.world)

/-- A run that breaks off fails, and so does one that an observer of the end fails; any other succeeds. -/
theorem run_eq (app : Application σ) (args : List String) (world : World σ) :
    app.run args world = match (app.drive args).run.run { world } with
      | (.error error, boot) => app.failed error false boot
      | (.ok container, boot) =>
        match (app.finish container).run.run boot with
        | (.error error, boot) => app.failed error false boot
        | (.ok (some promoted), boot) => app.failed promoted true boot
        | (.ok none, boot) => (.ok container, boot.world) := by
  have hbind {α β : Type} (part : StateM (Bootstrap σ) α) (next : α → StateM (Bootstrap σ) β) (boot : Bootstrap σ) :
      (part >>= next) boot = next (part.run boot).1 (part.run boot).2 := Bootstrap.run_bind part next boot
  simp only [Application.run, hbind]
  rcases (app.drive args).run.run { world } with ⟨error | container, boot⟩
  · rfl
  · simp only [hbind]
    rcases (app.finish container).run.run boot with ⟨error | _ | promoted, boot⟩ <;> rfl

/-- What becomes of a run that breaks off: its failure is dealt with where it broke off, and observers know already that the run is
over if that was an observer. -/
theorem BreaksOff.run (h : app.BreaksOff args origin.state error has steps state) :
    ∃ boot, Bootstrap.At origin error.phase? has steps state boot ∧
      app.run args origin = app.failed error (error.phase? = some .finished) boot := by
  by_cases hphase : error.phase? = some .finished
  · rw [hphase, decide_eq_true rfl]
    cases h with
    | configuring | creating => nomatch hphase
    | refused _ hrefused =>
      obtain ⟨next, hnext, hphase'⟩ := phase_of_refused hrefused
      exact absurd (hphase'.symm.trans hphase) (by cases next <;> nofun)
    | finishing hreaches hpromoted =>
      obtain ⟨boot, after, hdrive, hfinish, hat⟩ := hreaches.finish
      rw [hpromoted] at hfinish
      refine ⟨after, hat, ?_⟩
      rw [run_eq, hdrive]
      simp only [hfinish]
  · obtain ⟨boot, hdrive, hat⟩ := h.drive hphase
    refine ⟨boot, hat, ?_⟩
    rw [run_eq, hdrive, decide_eq_false hphase]

/-- A run whose runners are done, and with whose end no observer finds fault, succeeds. -/
theorem Reaches.run (h : app.Reaches args origin.state (.served arguments env container) steps state)
    (hpromoted : Observer.promoted? (some container) app.inOrder state = none) :
    ∃ after, app.run args origin = (.ok container, after) ∧
      origin.Leads (steps ++ [.entered .finished] ++ Deed.steps (app.toldFinished container))
        (Deed.leave (app.toldFinished container) state) after := by
  obtain ⟨boot, after, hdrive, hfinish, hat⟩ := h.finish
  rw [hpromoted] at hfinish
  refine ⟨after.world, ?_, hat.leads⟩
  rw [run_eq, hdrive]
  simp only [hfinish]

end Application

end Ignition
