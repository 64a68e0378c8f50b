import Ignition.Proofs.Run.Outcome
import Ignition.Proofs.Run.Trace

/-!
# The end of a run that failed

What is done about a failure, whatever it is and wherever the run broke off (`Application.aftermath`): the exit code is published if it
is not zero and there is an active container; observers are told that the run is over, unless they know; the failure is reported; and
the container is closed if there is one. The failure gets the next number, and the last resort is told of it (`Application.DealtWith`).
`Application.failure_path_of_run` says so of whole runs, and that nothing of it is done in a run that succeeds.
-/

namespace Ignition

/-- A failure that was registered is known. -/
theorem Suppressor.isRegistered_register (suppressor : Suppressor) (failure : RunFailure) :
    (suppressor.register failure).isRegistered (.run failure) := by
  rw [register]
  split
  · assumption
  · simp [isRegistered]

/-- Registering a failure leaves the exit code. -/
theorem Suppressor.exitCode_register (suppressor : Suppressor) (failure : RunFailure) :
    (suppressor.register failure).exitCode = suppressor.exitCode := by
  rw [register]
  split <;> rfl

namespace Application

variable {σ : Type}

/-! ## What is done about a failure -/

/-- The exit code is published to a container that is active, unless it is zero. -/
def publication (container : Option (Container σ)) (code : Int) (state : σ) : List (Deed σ) :=
  match container with
  | some container =>
    if code ≠ 0 ∧ container.isActive state then [Deed.ofAction (.published code) (container.publish code)] else []
  | none => []

/-- Observers are told that the run is over, unless they know. -/
def farewell (app : Application σ) (error : RunError) (notified : Bool) (container : Option (Container σ)) : List (Deed σ) :=
  if notified then []
  else ⟨.entered .finished, id⟩ :: Observer.told (.finished true) (·.finished container (some error)) app.inOrder

/-- The report of an error: what the first analyzer says that recognises it goes to the reporter, and else the log tells. -/
def reportAction (app : Application σ) (error : RunError) : Action σ Unit :=
  match Analyzer.first? app.analyzers error.failure with
  | some analysis => app.reporter analysis
  | none => .telling () [unexplainedEvent error]

/-- The error is reported. -/
def reporting (app : Application σ) (error : RunError) : Deed σ :=
  Deed.ofAction (.reported (Analyzer.first? app.analyzers error.failure).isSome) (app.reportAction error)

/-- The container is closed. -/
def closing (container : Option (Container σ)) : List (Deed σ) :=
  container.toList.map fun container => Deed.ofAction .closed container.close

/-- What is done about an error. -/
def aftermath (app : Application σ) (error : RunError) (notified : Bool) (container : Option (Container σ)) (state : σ) :
    List (Deed σ) :=
  publication container (failureCode container error state) state ++ app.farewell error notified container ++
    [app.reporting error] ++ closing container

/-- What the last resort knows after it was told the exit code and of the failure. -/
def remembered (app : Application σ) (failure : RunFailure) (suppressor : Suppressor) : Suppressor :=
  if app.usesSuppressor then
    (if failure.exitCode ≠ 0 then suppressor.registerCode failure.exitCode else suppressor).register failure
  else suppressor

/-! ## The parts of the end -/

variable {app : Application σ} {error : RunError} {container : Option (Container σ)} {code : Int}

/-- The exit code is published, and the last resort is told of it, unless it is zero. -/
theorem leads_announceCode (app : Application σ) (container : Option (Container σ)) (code : Int) (world : World σ) :
    World.Leads
      { world with suppressor := if code ≠ 0 ∧ app.usesSuppressor then world.suppressor.registerCode code else world.suppressor }
      (Deed.steps (publication container code world.state)) (Deed.leave (publication container code world.state) world.state)
      ((app.announceCode container code).run world).2 := by
  by_cases hcode : code = 0
  · subst hcode
    cases container <;> exact ⟨rfl, (List.append_nil _).symm, rfl, rfl⟩
  · rw [announceCode, if_pos hcode]
    cases container with
    | none =>
      rw [publication]
      cases app.usesSuppressor <;> exact ⟨rfl, (List.append_nil _).symm, rfl, by simp [hcode]; rfl⟩
    | some container =>
      simp only [publication, StateT.run_bind, Running.run_look, ne_eq, hcode, not_false_eq_true, true_and]
      cases container.isActive world.state <;> cases app.usesSuppressor
      · exact ⟨rfl, (List.append_nil _).symm, rfl, rfl⟩
      · exact ⟨rfl, (List.append_nil _).symm, rfl, rfl⟩
      · exact ⟨rfl, rfl, rfl, rfl⟩
      · exact ⟨rfl, rfl, rfl, rfl⟩

theorem run_report (world : World σ) :
    (app.report error).run world =
      ((), { world with
        state := (app.reportAction error world.state).2.1
        steps := world.steps ++ [(app.reporting error).step]
        log := world.log ++ (app.reportAction error world.state).2.2 }) := by
  simp only [report, reporting, reportAction]
  cases Analyzer.first? app.analyzers error.failure <;> rfl

/-- Closing the container of a failed run is one deed. -/
theorem does_closeFailed (container : Container σ) : (closeFailed container).Does [Deed.ofAction .closed container.close] := by
  change (closeFailed container).Does ([Deed.ofAction .closed container.close] ++ [])
  refine (Running.Does.perform _ _).bind fun answer => ?_
  cases answer with
  | ok => exact .pure ()
  | error failure => exact .tell _

/-- It only adds to the log. -/
theorem log_closeFailed (container : Container σ) (world : World σ) :
    ∃ later, ((closeFailed container).run world).2.log = world.log ++ later := by
  rw [closeFailed, StateT.run_bind, Running.run_perform]
  rcases container.close world.state with ⟨failure | _, state, told⟩
  · exact ⟨told ++ _, List.append_assoc ..⟩
  · exact ⟨told, rfl⟩

/-- Observers are told that the run is over, whatever they answer. -/
theorem run_finishFailed (app : Application σ) (error : RunError) (boot : Bootstrap σ)
    (hphase : Phase.mayEnter boot.phase .finished = true) :
    ∃ after, (app.finishFailed error).run boot = ((), after) ∧ after.container = boot.container ∧
      boot.world.Leads (Deed.steps (app.farewell error false boot.container))
        (Deed.leave (app.farewell error false boot.container) boot.world.state) after.world := by
  obtain ⟨entered, henter, hentered⟩ :=
    Booting.yields_enter (Bootstrap.At.mk rfl rfl (World.Leads.refl boot.world)) hphase
  have htold := Observer.does_notifyFinished boot.container (some error) app.inOrder entered.world
  have hanswer := Observer.notifyFinished_answer boot.container (some error) app.inOrder entered.world
  refine ⟨{ entered with
    world := ((Observer.notifyFinished boot.container (some error) app.inOrder).run entered.world).2 }, ?_,
    hentered.container_eq, ?_⟩
  · rw [finishFailed, Bootstrap.run_bind, henter]
    simp only [Bootstrap.run_bind, Bootstrap.run_get, Bootstrap.run_within, hentered.container_eq, hanswer]
    rfl
  · have hleads := hentered.leads.trans htold
    rw [hentered.leads.state_eq] at hleads
    exact hleads

/-- A failure was dealt with: what it is, what was done about it, and what is known of it. The run began with what was kept, and broke
off with a container, perhaps, after some steps and with some state. -/
structure DealtWith (app : Application σ) (error : RunError) (notified : Bool) (origin : World σ)
    (container : Option (Container σ)) (steps : List Step) (state : σ) (failure : RunFailure) (after : World σ) : Prop where
  /-- The failure is about the error and has the next number. -/
  failure_eq : failure = { number := origin.failures, error, exitCode := failureCode container error state }
  /-- The state is the one that is left by what was done. -/
  state_eq : after.state = Deed.leave (app.aftermath error notified container state) state
  /-- The steps are those of what was done. -/
  steps_eq : after.steps = origin.steps ++ steps ++ Deed.steps (app.aftermath error notified container state)
  /-- One more failure was reported. -/
  failures_eq : after.failures = origin.failures + 1
  /-- The last resort knows. -/
  suppressor_eq : after.suppressor = app.remembered failure origin.suppressor
  /-- The report is in the log. -/
  log_eq : ∃ earlier later, after.log = earlier ++ (app.reportAction error (Deed.leave
    (publication container failure.exitCode state ++ app.farewell error notified container) state)).2.2 ++ later

/-- The failure is reported and gets the next number, and the container is closed. -/
theorem run_settle (app : Application σ) (container : Option (Container σ)) (error : RunError) (code : Int) (world : World σ) :
    ((app.settle container error code).run world).1 = { number := world.failures, error, exitCode := code } ∧
      World.Leads
        { world with
          failures := world.failures + 1
          suppressor := if app.usesSuppressor then
            world.suppressor.register { number := world.failures, error, exitCode := code } else world.suppressor }
        (Deed.steps (app.reporting error :: closing container)) (Deed.leave (app.reporting error :: closing container) world.state)
        ((app.settle container error code).run world).2 ∧
      ∃ later, ((app.settle container error code).run world).2.log =
        world.log ++ (app.reportAction error world.state).2.2 ++ later := by
  generalize hfailure : ({ number := world.failures, error, exitCode := code } : RunFailure) = failure
  generalize hregistered : ({ world with
    state := (app.reportAction error world.state).2.1
    steps := world.steps ++ [(app.reporting error).step]
    log := world.log ++ (app.reportAction error world.state).2.2
    failures := world.failures + 1
    suppressor := if app.usesSuppressor then world.suppressor.register failure else world.suppressor } : World σ) = registered
  have hleads : World.Leads
      { world with
        failures := world.failures + 1
        suppressor := if app.usesSuppressor then world.suppressor.register failure else world.suppressor }
      [(app.reporting error).step] ((app.reporting error).effect world.state) registered := by
    subst hregistered
    exact ⟨rfl, rfl, rfl, rfl⟩
  have hlog : registered.log = world.log ++ (app.reportAction error world.state).2.2 := by rw [← hregistered]
  rw [settle, StateT.run_bind, run_report]
  cases container with
  | none =>
    subst hfailure hregistered
    exact ⟨rfl, hleads, [], (List.append_nil _).symm⟩
  | some container =>
    have hclose := does_closeFailed container registered
    obtain ⟨later, hlater⟩ := log_closeFailed container registered
    rw [hleads.state_eq] at hclose
    subst hfailure hregistered
    exact ⟨rfl, hleads.trans hclose, later, by rw [← hlog]; exact hlater⟩

/-- Up to the report, the exit code is published and observers are told. -/
theorem run_fail (app : Application σ) {notified : Bool} {boot : Bootstrap σ}
    (hphase : notified = false → Phase.mayEnter boot.phase .finished = true)
    (hcode : code = failureCode boot.container error boot.world.state) :
    ∃ told : Bootstrap σ,
      World.Leads
        { boot.world with
          suppressor := if code ≠ 0 ∧ app.usesSuppressor then boot.world.suppressor.registerCode code else boot.world.suppressor }
        (Deed.steps (publication boot.container code boot.world.state ++ app.farewell error notified boot.container))
        (Deed.leave (publication boot.container code boot.world.state ++ app.farewell error notified boot.container)
          boot.world.state) told.world ∧
      (app.fail error notified).run boot = (Bootstrap.within (app.settle boot.container error code)).run told := by
  have hannounce := leads_announceCode app boot.container code boot.world
  generalize hannounced : ((app.announceCode boot.container code).run boot.world).2 = announced at hannounce
  subst hcode
  cases notified with
  | true =>
    refine ⟨{ boot with world := announced }, ?_, ?_⟩
    · rw [farewell, if_pos rfl, List.append_nil]
      exact hannounce
    · subst hannounced
      rfl
  | false =>
    obtain ⟨told, htold, -, hleads⟩ := run_finishFailed app error { boot with world := announced } (hphase rfl)
    refine ⟨told, ?_, ?_⟩
    · have hboth := hannounce.trans hleads
      rw [hannounce.state_eq, ← Deed.leave_append, ← Deed.steps_append] at hboth
      exact hboth
    · subst hannounced
      simp only [fail, Bootstrap.run_bind, Bootstrap.run_get, Bootstrap.run_within]
      rw [if_pos (show (!false) = true from rfl), Bootstrap.run_bind, htold]
      rfl

/-- Every failure is dealt with. -/
theorem dealtWith_fail {notified : Bool} {boot : Bootstrap σ} {origin : World σ} {phase : Option Phase} {steps : List Step} {state : σ}
    (hat : Bootstrap.At origin phase container steps state boot)
    (hphase : notified = false → Phase.mayEnter phase .finished = true) :
    app.DealtWith error notified origin container steps state
      ((app.fail error notified).run boot).1 ((app.fail error notified).run boot).2.world := by
  obtain ⟨rfl, rfl, hat⟩ := hat
  obtain rfl := hat.state_eq
  obtain ⟨told, hleads, hfail⟩ := run_fail app hphase rfl
  obtain ⟨hfailure, hsettle, later, hlog⟩ :=
    run_settle app boot.container error (failureCode boot.container error boot.world.state) told.world
  rw [hleads.state_eq] at hsettle hlog
  rw [hleads.failures_eq, hat.failures_eq] at hfailure hsettle
  have haftermath : app.aftermath error notified boot.container boot.world.state =
      publication boot.container (failureCode boot.container error boot.world.state) boot.world.state ++
        app.farewell error notified boot.container ++ (app.reporting error :: closing boot.container) := by
    rw [aftermath, List.append_assoc, List.singleton_append]
  rw [hfail, Bootstrap.run_within]
  exact {
    failure_eq := hfailure
    state_eq := by rw [hsettle.state_eq, haftermath, Deed.leave_append _ (_ :: _)]
    steps_eq := by
      rw [hsettle.steps_eq, hleads.steps_eq, haftermath, Deed.steps_append _ (_ :: _), hat.steps_eq, List.append_assoc]
    failures_eq := hsettle.failures_eq
    suppressor_eq := by
      rw [hsettle.suppressor_eq, hleads.suppressor_eq, hat.suppressor_eq, hfailure, remembered]
      cases app.usesSuppressor <;> simp
    log_eq := ⟨told.world.log, later, by rw [hfailure]; exact hlog⟩ }

/-! ## Runs that fail -/

variable {args : List String} {origin : World σ} {steps : List Step} {state : σ}

/-- What becomes of a run that breaks off. Observers know already that it is over if one of them failed at that. -/
theorem BreaksOff.dealtWith (h : app.BreaksOff args origin.state error container steps state) :
    ∃ failure after, app.run args origin = (.error failure, after) ∧
      app.DealtWith error (error.phase? = some .finished) origin container steps state failure after := by
  obtain ⟨boot, hat, hrun⟩ := h.run
  refine ⟨_, _, hrun, dealtWith_fail hat fun hphase => ?_⟩
  obtain ⟨phase, heq, -⟩ := h.phases
  rw [heq] at hphase ⊢
  cases phase with
  | finished => exact absurd rfl (of_decide_eq_false hphase)
  | _ => rfl

/-- The steps of what is done about an error. -/
theorem steps_aftermath (app : Application σ) (error : RunError) (notified : Bool) (container : Option (Container σ)) (state : σ) :
    Deed.steps (app.aftermath error notified container state) =
      (if failureCode container error state ≠ 0 ∧ container.any (·.isActive state) then
        [.published (failureCode container error state)] else []) ++
      (if notified then [] else .entered .finished :: Observer.round (.finished true) app.inOrder) ++
      [.reported (Analyzer.first? app.analyzers error.failure).isSome] ++
      (if container.isSome then [.closed] else []) := by
  have hpublication : Deed.steps (publication container (failureCode container error state) state) =
      if failureCode container error state ≠ 0 ∧ container.any (·.isActive state) then
        [.published (failureCode container error state)] else [] := by
    cases container with
    | none => simp [publication]
    | some container =>
      simp only [publication, Option.any_some]
      split <;> rfl
  have hfarewell : Deed.steps (app.farewell error notified container) =
      if notified then [] else .entered .finished :: Observer.round (.finished true) app.inOrder := by
    rw [← Observer.steps_told (.finished true) (·.finished container (some error)), farewell]
    split <;> rfl
  have hclosing : Deed.steps (closing container) = if container.isSome then [.closed] else [] := by
    cases container <;> rfl
  rw [aftermath, Deed.steps_append, Deed.steps_append, Deed.steps_append, hpublication, hfarewell, hclosing]
  rfl

/-- A run that breaks off has a container exactly if the factory had made it. -/
theorem BreaksOff.container_iff {start : σ} (h : app.BreaksOff args start error container steps state) (made : Container σ) :
    container = some made ↔ ∃ arguments env steps state, app.Reaches args start (.created arguments env made) steps state := by
  obtain ⟨stage, before, behind, place, -, hreaches, rfl, -, -, hlast⟩ := h.last_stage
  constructor
  · exact hreaches.created_of_container
  · rintro ⟨arguments, env, steps, state, hcreated⟩
    have hle := hlast _ _ _ hcreated
    obtain ⟨made', hmade'⟩ := Stage.exists_container hle
    obtain ⟨arguments', env', steps', state', hcreated'⟩ := hreaches.created_of_container hmade'
    obtain ⟨hstage, -⟩ := hcreated.unique hcreated' rfl
    rw [hmade', (Stage.created.inj hstage).2.2]

/-- What the log tells of an error that no analyzer recognises: it is an error, and the event says in which phase, in which words and for
which causes. -/
theorem log_of_unrecognised {state : σ} {phase : Phase} (hphase : error.phase? = some phase)
    (h : Analyzer.first? app.analyzers error.failure = none) : (app.reportAction error state).2.2 = [.event {
      level := .error
      target := "liftoff::run"
      message := "application run failed"
      fields := [("phase", .text ("Some(" ++ phase.fieldText ++ ")")), ("error", .text error.message),
        ("causes", .text (Text.quotedList error.failure.messages))] }] := by
  simp only [reportAction, h, unexplainedEvent, hphase]
  rfl

/-- Whatever fails in a run, it is the first failure that the run ends with: the one that it broke off with. Then, in this order, the
exit code is published if it is not zero and there is an active container, observers are told that the run is over unless one of them
failed at that, the failure is reported once, and the container is closed if the factory had made one. An error that no analyzer recognises
is told of in the log, as an error and in its own words. The last resort, if there is one, knows the failure and its exit code, unless that
is zero. In a run that succeeds nothing of this is done. -/
theorem failure_path_of_run (app : Application σ) (args : List String) (world : World σ) :
    match app.run args world with
    | (.ok _, after) =>
      ∃ steps, after.steps = world.steps ++ steps ∧ Step.endings steps = [] ∧
        after.failures = world.failures ∧ after.suppressor = world.suppressor
    | (.error failure, after) =>
      ∃ container before state, app.BreaksOff args world.state failure.error container before state ∧ Step.endings before = [] ∧
        (∀ made, container = some made ↔
          ∃ arguments env steps state, app.Reaches args world.state (.created arguments env made) steps state) ∧
        failure.exitCode = failureCode container failure.error state ∧
        after.steps = world.steps ++ before ++
          ((if failure.exitCode ≠ 0 ∧ container.any (·.isActive state) then [.published failure.exitCode] else []) ++
            (if failure.error.phase? = some .finished then []
              else .entered .finished :: Observer.round (.finished true) app.inOrder) ++
            [.reported (Analyzer.first? app.analyzers failure.error.failure).isSome] ++
            (if container.isSome then [.closed] else [])) ∧
        after.state = Deed.leave
          (app.aftermath failure.error (failure.error.phase? = some .finished) container state) state ∧
        (∃ earlier later, after.log = earlier ++ (app.reportAction failure.error (Deed.leave
          (publication container failure.exitCode state ++
            app.farewell failure.error (failure.error.phase? = some .finished) container) state)).2.2 ++ later) ∧
        (Analyzer.first? app.analyzers failure.error.failure = none → ∃ earlier later phase, failure.error.phase? = some phase ∧
          after.log = earlier ++ [.event {
            level := .error
            target := "liftoff::run"
            message := "application run failed"
            fields := [("phase", .text ("Some(" ++ phase.fieldText ++ ")")), ("error", .text failure.error.message),
              ("causes", .text (Text.quotedList failure.error.failure.messages))] }] ++ later) ∧
        (if app.usesSuppressor then
          after.suppressor.isRegistered (.run failure) ∧
            after.suppressor.exitCode = if failure.exitCode ≠ 0 then failure.exitCode else world.suppressor.exitCode
          else after.suppressor = world.suppressor) := by
  rcases app.breaksOff_or_succeeds args world.state with
    ⟨error, container, before, state, hbreak⟩ | ⟨arguments, env, container, steps, state, hserved, hpromoted⟩
  · obtain ⟨failure, after, hrun, hdealt⟩ := hbreak.dealtWith
    rw [hrun]
    obtain rfl : error = failure.error := by rw [hdealt.failure_eq]
    have hcode : failure.exitCode = failureCode container failure.error state := by rw [hdealt.failure_eq]
    refine ⟨container, before, state, hbreak, hbreak.endings, hbreak.container_iff, hcode, ?_, hdealt.state_eq,
      hdealt.log_eq, fun hunrecognised => ?_, ?_⟩
    · rw [hdealt.steps_eq, steps_aftermath, ← hcode]
      simp
    · obtain ⟨phase, hphase, -⟩ := hbreak.phases
      obtain ⟨earlier, later, hlog⟩ := hdealt.log_eq
      exact ⟨earlier, later, phase, hphase, by rw [hlog, log_of_unrecognised hphase hunrecognised]⟩
    · rw [hdealt.suppressor_eq, remembered]
      split
      · refine ⟨Suppressor.isRegistered_register _ failure, ?_⟩
        rw [Suppressor.exitCode_register]
        split <;> rfl
      · rfl
  · obtain ⟨after, hrun, hleads⟩ := hserved.run hpromoted
    rw [hrun]
    exact ⟨_, hleads.steps_eq, by simp [hserved.endings, toldFinished], hleads.failures_eq, hleads.suppressor_eq⟩

end Application

end Ignition
