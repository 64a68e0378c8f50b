import Ignition.Proofs.Run.Course

/-!
# The trace of a run

What the steps of a run tell: which phases were entered (`Step.phases`) and which notices were given to whom (`Step.notices`). Up to a
stage the phase entered last is that of the stage, and every observer was given the notices of the stage (`Stage.notices`), each once
and in order. Where a run breaks off, the phase entered last is the one that the error belongs to. Nothing was published, reported or
closed so far (`Step.isEnding`).
-/

namespace Ignition

variable {σ : Type}

/-! ## What steps tell -/

namespace Step

/-- The phase that is entered by a step. -/
@[simp] def entered? : Step → Option Phase
  | entered phase => some phase
  | _ => none

/-- The notice that is given by a step, and to which observer. -/
@[simp] def notified? : Step → Option (Notice × String)
  | notified notice observer => some (notice, observer)
  | _ => none

/-- Whether a step is a call whose failure fails the run. -/
def isDemand : Step → Bool
  | created | initialized _ | registered _ | loaded | refreshed | hooked | invoked _ => true
  | _ => false

/-- Whether a step belongs to the end of a run that failed: an exit code is published, a failure is reported or a container closed. -/
@[simp] def isEnding : Step → Bool
  | published _ | reported _ | closed => true
  | _ => false

/-- The phases that are entered, in order. -/
def phases (steps : List Step) : List Phase :=
  steps.filterMap entered?

/-- The notices that are given, in order, and to which observers. -/
def notices (steps : List Step) : List (Notice × String) :=
  steps.filterMap notified?

/-- What is done at the end of a run that failed. -/
def endings (steps : List Step) : List Step :=
  steps.filter isEnding

@[simp] theorem phases_nil : phases [] = [] := rfl

@[simp] theorem notices_nil : notices [] = [] := rfl

@[simp] theorem endings_nil : endings [] = [] := rfl

/-- The phases of a step and those behind it. -/
@[simp] theorem phases_cons (step : Step) (steps : List Step) : phases (step :: steps) = step.entered?.toList ++ phases steps := by
  rw [phases, List.filterMap_cons]
  cases step.entered? <;> rfl

/-- The notifications of a step and those behind it. -/
@[simp] theorem notices_cons (step : Step) (steps : List Step) :
    notices (step :: steps) = step.notified?.toList ++ notices steps := by
  rw [notices, List.filterMap_cons]
  cases step.notified? <;> rfl

/-- The steps of the ending among a step and those behind it. -/
@[simp] theorem endings_cons (step : Step) (steps : List Step) :
    endings (step :: steps) = (if step.isEnding then [step] else []) ++ endings steps := by
  rw [endings, List.filter_cons]
  cases step.isEnding <;> rfl

/-- The phases of some steps and of others behind them. -/
@[simp] theorem phases_append (steps more : List Step) : phases (steps ++ more) = phases steps ++ phases more :=
  List.filterMap_append

/-- The notifications of some steps and of others behind them. -/
@[simp] theorem notices_append (steps more : List Step) : notices (steps ++ more) = notices steps ++ notices more :=
  List.filterMap_append

/-- The steps of the ending among some steps and others behind them. -/
@[simp] theorem endings_append (steps more : List Step) : endings (steps ++ more) = endings steps ++ endings more :=
  List.filter_append steps more

variable {steps : List Step}

/-- A call whose failure fails the run is neither of these. -/
theorem silent_of_isDemand {step : Step} (h : step.isDemand) :
    step.entered? = none ∧ step.notified? = none ∧ step.isEnding = false := by
  cases step <;> first | exact ⟨rfl, rfl, rfl⟩ | nomatch h

/-- Demands enter no phase. -/
theorem phases_of_demands (h : ∀ step ∈ steps, step.isDemand) : phases steps = [] :=
  List.filterMap_eq_nil_iff.mpr fun step hmem => (silent_of_isDemand (h step hmem)).1

/-- Demands notify nobody. -/
theorem notices_of_demands (h : ∀ step ∈ steps, step.isDemand) : notices steps = [] :=
  List.filterMap_eq_nil_iff.mpr fun step hmem => (silent_of_isDemand (h step hmem)).2.1

/-- Demands are no part of the ending. -/
theorem endings_of_demands (h : ∀ step ∈ steps, step.isDemand) : endings steps = [] :=
  List.filter_eq_nil_iff.mpr fun step hmem => Bool.eq_false_iff.mp (silent_of_isDemand (h step hmem)).2.2

variable (notice : Notice) (observers : List (Observer σ))

/-- A round of notifications enters no phase. -/
@[simp] theorem phases_round : phases (Observer.round notice observers) = [] := by
  simp [phases, Observer.round, List.filterMap_map, Function.comp_def, entered?]

/-- A round of notifications tells each observer, in order. -/
@[simp] theorem notices_round :
    notices (Observer.round notice observers) = observers.map fun observer => (notice, observer.name) := by
  simp [notices, Observer.round, List.filterMap_map, Function.comp_def, notified?]

/-- A round of notifications is no part of the ending. -/
@[simp] theorem endings_round : endings (Observer.round notice observers) = [] := by
  simp [endings, Observer.round, isEnding]

end Step

/-! ## The trace up to a stage -/

/-- The notices that are given up to a stage. -/
def Stage.notices : Stage σ → List Notice
  | begun => [.starting]
  | configured .. | created .. => [.starting, .environmentPrepared]
  | prepared .. => [.starting, .environmentPrepared, .contextPrepared]
  | filled .. | activated .. | served .. => [.starting, .environmentPrepared, .contextPrepared, .contextLoaded]

namespace Application

variable {app : Application σ} {args : List String} {start : σ} {stage : Stage σ} {has : Option (Container σ)}
variable {steps more : List Step} {state last : σ} {error : RunError}

/-- The notices as they reach the observers: each goes to all of them before the next one. -/
def spread (app : Application σ) (notices : List Notice) : List (Notice × String) :=
  notices.flatMap fun notice => app.inOrder.map fun observer => (notice, observer.name)

/-- The steps that a stage demands are demands. -/
theorem isDemand_of_mem (app : Application σ) (state : σ) (stage : Stage σ) :
    ∀ step ∈ Demand.steps (app.demands state stage), step.isDemand := by
  intro step h
  obtain ⟨demand, hmem, rfl⟩ := List.mem_map.mp h
  cases stage with
  | begun | configured | served => nomatch hmem
  | created =>
    obtain ⟨initializer, -, rfl⟩ := List.mem_map.mp hmem
    rfl
  | prepared =>
    simp only [demands, filling, List.mem_cons, List.not_mem_nil, or_false] at hmem
    obtain rfl | rfl | rfl := hmem <;> rfl
  | filled =>
    obtain rfl | hhook := List.mem_cons.mp hmem
    · rfl
    · split at hhook
      · obtain rfl := List.mem_singleton.mp hhook
        rfl
      · exact absurd hhook List.not_mem_nil
  | activated =>
    obtain ⟨runner, -, rfl⟩ := List.mem_map.mp hmem
    rfl

/-- The steps up to a demand that is refused are demands. -/
theorem isDemand_of_refused (h : Demand.Refused (app.demands state stage) state error more last) :
    ∀ step ∈ more, step.isDemand :=
  fun step hmem => isDemand_of_mem app state stage step (h.isPrefix.subset hmem)

/-- The phase that was entered last before a stage was reached is that of the stage. -/
theorem Reaches.phases (h : app.Reaches args start stage steps state) : (Step.phases steps).getLast? = some stage.phase := by
  induction h with
  | begun => simp [Stage.phase]
  | configured => simp [Stage.phase]
  | created => simp [Stage.phase]
  | @next stage next steps state last _ hnext _ ih =>
    have hdemands := Step.phases_of_demands (isDemand_of_mem app state stage)
    cases stage <;> cases hnext <;> simp [Stage.entry, told, Stage.phase, hdemands, ih]

/-- Every observer was given the notices of a stage that was reached, in order. -/
theorem Reaches.notices (h : app.Reaches args start stage steps state) : Step.notices steps = app.spread stage.notices := by
  induction h with
  | begun => simp [spread, Stage.notices]
  | configured _ _ _ ih => simp [ih, spread, Stage.notices]
  | created _ _ ih => simp [ih, spread, Stage.notices]
  | @next stage next steps state last _ hnext _ ih =>
    have hdemands := Step.notices_of_demands (isDemand_of_mem app state stage)
    cases stage <;> cases hnext <;> simp [Stage.entry, told, ih, hdemands, spread, Stage.notices]

/-- Nothing that belongs to the end of a run that failed was done before a stage was reached. -/
theorem Reaches.endings (h : app.Reaches args start stage steps state) : Step.endings steps = [] := by
  induction h with
  | begun => simp
  | configured _ _ _ ih => simp [ih]
  | created _ _ ih => simp [ih]
  | @next stage next steps state last _ hnext _ ih =>
    have hdemands := Step.endings_of_demands (isDemand_of_mem app state stage)
    cases stage <;> cases hnext <;> simp [Stage.entry, told, hdemands, ih]

/-! ## The trace of a run that breaks off -/

/-- A run whose configuration is at fault gets no further than its beginning. -/
theorem Reaches.isLast_of_fault {fault : ConfigError} (h : app.Reaches args start .begun steps state)
    (hconfiguration : app.configuration args state = .error fault) : app.IsLast args start .begun := by
  refine isLast_of_not_next fun next more state hnext hleft => ?_
  cases hnext with
  | begun | created => nomatch hleft
  | configured h' hconfiguration' =>
    obtain ⟨-, rfl, rfl⟩ := h.unique h' rfl
    exact nomatch hconfiguration.symm.trans hconfiguration'
  | next _ hnext => exact absurd (Stage.left_lt_of_next hnext) (by simp [Nat.succ.inj hleft])

/-- A run for which no container is made gets no further than its configuration. -/
theorem Reaches.isLast_of_unmade {arguments : Arguments} {env : Environment} {failure : Failure} {told : List LogRecord}
    (h : app.Reaches args start (.configured arguments env) steps state)
    (hfactory : app.factory env state = (.error failure, last, told)) : app.IsLast args start (.configured arguments env) := by
  refine isLast_of_not_next fun next more state hnext hleft => ?_
  cases hnext with
  | begun | configured => nomatch hleft
  | created h' hfactory' =>
    obtain ⟨hstage, rfl, rfl⟩ := h.unique h' rfl
    obtain ⟨rfl, rfl⟩ := Stage.configured.inj hstage
    exact nomatch hfactory.symm.trans hfactory'
  | next _ hnext => exact absurd (Stage.left_lt_of_next hnext) (by simp [Nat.succ.inj hleft])

/-- A run gets no further than the stage at which a demand is refused. -/
theorem Reaches.isLast_of_refused (h : app.Reaches args start stage steps state)
    (hrefused : Demand.Refused (app.demands state stage) state error more last) : app.IsLast args start stage :=
  isLast_of_not_next fun _ _ _ hnext => h.not_next_of_refused hrefused hnext

/-- The error of a configuration at fault belongs to an earlier phase than the last one. -/
theorem unfinished_of_environment (failure : Failure) : (RunError.because .environment failure).phase? ≠ some .finished :=
  nofun

/-- So does the error of a container that is not made. -/
theorem unfinished_of_container (failure : Failure) : (RunError.because .container failure).phase? ≠ some .finished :=
  nofun

/-- The error for which a demand is refused belongs to an earlier phase than the last one, and there are stages behind. -/
theorem unfinished_of_refused (hrefused : Demand.Refused (app.demands state stage) state error more last) :
    error.phase? ≠ some .finished ∧ stage.left ≠ 0 := by
  obtain ⟨next, hnext, hphase⟩ := phase_of_refused hrefused
  refine ⟨?_, ?_⟩
  · rw [hphase]
    cases next <;> nofun
  · rw [Stage.left_of_next hnext]
    exact Nat.succ_ne_zero _

/-- A run that breaks off has a last stage. Its container is the one that it has there; and behind that stage observers are told
nothing, or, if one of them fails at that, that the run is over. -/
theorem BreaksOff.last_stage (h : app.BreaksOff args start error has steps state) :
    ∃ stage before behind place, steps = before ++ behind ∧ app.Reaches args start stage before place ∧ stage.container? = has ∧
      Step.notices behind = app.spread (if error.phase? = some .finished then [.finished false] else []) ∧
      (error.phase? = some .finished ↔ stage.left = 0) ∧ app.IsLast args start stage := by
  cases h with
  | configuring hreaches hconfiguration =>
    exact ⟨_, _, _, _, rfl, hreaches, rfl, rfl, iff_of_false (unfinished_of_environment _) (Nat.succ_ne_zero _),
      hreaches.isLast_of_fault hconfiguration⟩
  | creating hreaches hfactory =>
    exact ⟨_, _, _, _, List.append_assoc .., hreaches, rfl, rfl, iff_of_false (unfinished_of_container _) (Nat.succ_ne_zero _),
      hreaches.isLast_of_unmade hfactory⟩
  | @refused stage _ _ more _ _ hreaches hrefused =>
    obtain ⟨hfinished, hleft⟩ := unfinished_of_refused hrefused
    have hmore := Step.notices_of_demands (isDemand_of_refused hrefused)
    refine ⟨_, _, _, _, List.append_assoc .., hreaches, rfl, ?_, iff_of_false hfinished hleft, hreaches.isLast_of_refused hrefused⟩
    rw [if_neg hfinished]
    cases stage <;> simp [Stage.entry, hmore, spread]
  | finishing hreaches hpromoted =>
    have hfinished := Observer.phase_of_promoted hpromoted
    refine ⟨_, _, _, _, List.append_assoc .., hreaches, rfl, ?_, ⟨fun _ => rfl, fun _ => hfinished⟩, fun _ _ _ _ => Nat.zero_le _⟩
    rw [if_pos hfinished]
    simp [toldFinished, spread]

/-- The phase entered last is the one that the error belongs to. -/
theorem BreaksOff.phases (h : app.BreaksOff args start error has steps state) :
    ∃ phase, error.phase? = some phase ∧ (Step.phases steps).getLast? = some phase := by
  cases h with
  | configuring => exact ⟨.environmentPrepared, rfl, by simp⟩
  | creating => exact ⟨.contextPrepared, rfl, by simp⟩
  | @refused stage _ _ _ _ _ hreaches hrefused =>
    obtain ⟨next, hnext, hphase⟩ := phase_of_refused hrefused
    refine ⟨next.phase, hphase, ?_⟩
    have hmore := Step.phases_of_demands (isDemand_of_refused hrefused)
    cases stage <;> cases hnext <;> simp [Stage.entry, Stage.phase, hmore, hreaches.phases]
  | finishing _ hpromoted => exact ⟨.finished, Observer.phase_of_promoted hpromoted, by simp [toldFinished]⟩

/-- A run breaks off before its ending. -/
theorem BreaksOff.endings (h : app.BreaksOff args start error has steps state) : Step.endings steps = [] := by
  cases h with
  | configuring hreaches => simp [hreaches.endings]
  | creating hreaches => simp [hreaches.endings]
  | @refused stage _ _ _ _ _ hreaches hrefused =>
    have hmore := Step.endings_of_demands (isDemand_of_refused hrefused)
    cases stage <;> simp [Stage.entry, hreaches.endings, hmore]
  | finishing hreaches => simp [toldFinished, hreaches.endings]

end Application

end Ignition
