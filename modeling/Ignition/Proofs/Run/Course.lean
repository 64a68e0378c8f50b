import Ignition.Proofs.Run.Parts

/-!
# The course of a run

What a run can do, said once. A run goes from stage to stage (`Stage`), and `Application.Reaches` says which stages it reaches, after
which steps and in which state. The first stages are reached once observers know that the run has begun, once they know the
environment, and once there is a container; each of the others once the demands of the stage ahead of it are met
(`Application.demands`). Where a run does not get on, it breaks off with an error (`Application.BreaksOff`): because the configuration
is at fault, because there is no container, because a demand is refused, or, at the very end, because an observer fails. None of this
looks at the log.

A run reaches a stage in one way only (`Reaches.unique`), and it breaks off or succeeds (`breaksOff_or_succeeds`).
-/

namespace Ignition

variable {σ α : Type}

/-! ## Stages -/

/-- How far a run has come. -/
inductive Stage (σ : Type) where
  /-- Observers know that it has begun. -/
  | begun
  /-- Observers know the environment, and it is what they made of it. -/
  | configured (arguments : Arguments) (env : Environment)
  /-- There is a container. -/
  | created (arguments : Arguments) (env : Environment) (container : Container σ)
  /-- The container is initialized, and observers know. -/
  | prepared (arguments : Arguments) (env : Environment) (container : Container σ)
  /-- The container has taken the singletons and the sources, and observers know. -/
  | filled (arguments : Arguments) (env : Environment) (container : Container σ)
  /-- The container is active. -/
  | activated (arguments : Arguments) (env : Environment) (container : Container σ)
  /-- The runners are done. -/
  | served (arguments : Arguments) (env : Environment) (container : Container σ)

namespace Stage

/-- The phase that a run is in at a stage. -/
def phase : Stage σ → Phase
  | begun => .starting
  | configured .. => .environmentPrepared
  | created .. | prepared .. => .contextPrepared
  | filled .. => .contextLoaded
  | activated .. => .contextRefreshed
  | served .. => .runners

/-- The container that a run has at a stage. -/
def container? : Stage σ → Option (Container σ)
  | begun | configured .. => none
  | created _ _ container | prepared _ _ container | filled _ _ container | activated _ _ container | served _ _ container =>
    some container

/-- How many stages there are behind a stage. -/
def left : Stage σ → Nat
  | begun => 6
  | configured .. => 5
  | created .. => 4
  | prepared .. => 3
  | filled .. => 2
  | activated .. => 1
  | served .. => 0

/-- The stage that is reached once the demands of a stage are met. -/
def next? : Stage σ → Option (Stage σ)
  | created arguments env container => some (prepared arguments env container)
  | prepared arguments env container => some (filled arguments env container)
  | filled arguments env container => some (activated arguments env container)
  | activated arguments env container => some (served arguments env container)
  | begun | configured .. | served .. => none

/-- The phase that is entered before the demands of a stage are made, if it is not that of the stage itself. -/
def entry : Stage σ → List Step
  | prepared .. => [.entered .contextLoaded]
  | filled .. => [.entered .contextRefreshed]
  | activated .. => [.entered .runners]
  | begun | configured .. | created .. | served .. => []

variable (arguments : Arguments) (env : Environment) (container : Container σ)

@[simp] theorem left_begun : (begun : Stage σ).left = 6 := rfl

@[simp] theorem left_configured : (configured arguments env : Stage σ).left = 5 := rfl

@[simp] theorem left_created : (created arguments env container).left = 4 := rfl

@[simp] theorem left_prepared : (prepared arguments env container).left = 3 := rfl

@[simp] theorem left_filled : (filled arguments env container).left = 2 := rfl

@[simp] theorem left_activated : (activated arguments env container).left = 1 := rfl

@[simp] theorem left_served : (served arguments env container).left = 0 := rfl

/-- A run has six stages. -/
theorem left_le (stage : Stage σ) : stage.left ≤ 6 := by
  cases stage <;> simp

/-- The next stage leaves one less. -/
theorem left_of_next {stage next : Stage σ} (h : stage.next? = some next) : stage.left = next.left + 1 := by
  cases stage <;> cases h <;> rfl

/-- A stage makes no container. -/
theorem container?_of_next {stage next : Stage σ} (h : stage.next? = some next) : next.container? = stage.container? := by
  cases stage <;> cases h <;> rfl

/-- From the stage on at which the container is made there is one. -/
theorem exists_container {stage : Stage σ} (h : stage.left ≤ 4) : ∃ container, stage.container? = some container := by
  cases stage with
  | begun | configured => simp at h
  | _ => exact ⟨_, rfl⟩

/-- Only stages behind the container are reached by meeting demands. -/
theorem left_lt_of_next {stage next : Stage σ} (h : stage.next? = some next) : next.left < 4 := by
  cases stage <;> cases h <;> simp

end Stage

namespace Application

/-- What the configuration comes to in a state: what the command line says, and the environment that the search leaves. -/
def configuration (app : Application σ) (args : List String) (state : σ) : Except ConfigError (Arguments × Environment) :=
  match app.searchEnvironment args with
  | .error error => .error error
  | .ok (arguments, env) =>
    match (app.discovery.run (app.resources state) env).result with
    | .error error => .error error
    | .ok _ => .ok (arguments, (app.discovery.run (app.resources state) env).environment)

/-- What a run that begins in a state makes of it up to the configuration: observers are told that it begins. -/
def begun (app : Application σ) (args : List String) (start : σ) : σ :=
  Deed.leave (Observer.told .starting (·.starting args app.sources) app.inOrder) start

/-- The demands that are made at a stage, in a state: initializers are called, the container is filled and made active, and runners are
called. -/
def demands (app : Application σ) (state : σ) : Stage σ → List (Demand σ)
  | .created _ _ container => preparation container app.initializers
  | .prepared arguments env container => filling container arguments env app.sources
  | .filled _ _ container => activation container app.shutdownHook
  | .activated arguments _ container => service arguments (byPriority (·.priority) (container.runners state))
  | .begun | .configured .. | .served .. => []

/-- What observers are told once the demands of a stage are met. -/
def told (app : Application σ) : Stage σ → List (Deed σ)
  | .created _ _ container => Observer.told .contextPrepared (·.contextPrepared container) app.inOrder
  | .prepared _ _ container => Observer.told .contextLoaded (·.contextLoaded container) app.inOrder
  | .begun | .configured .. | .filled .. | .activated .. | .served .. => []

/-- What observers are told at the end of a run that succeeded. -/
def toldFinished (app : Application σ) (container : Container σ) : List (Deed σ) :=
  Observer.told (.finished false) (·.finished (some container) none) app.inOrder

/-- A run that begins in a state reaches a stage, after some steps and with some state. -/
inductive Reaches (app : Application σ) (args : List String) (start : σ) : Stage σ → List Step → σ → Prop where
  /-- Observers are told that the run begins. -/
  | begun :
      Reaches app args start .begun ([.entered .starting] ++ Observer.round .starting app.inOrder) (app.begun args start)
  /-- The configuration is put together, and observers are told of the environment. -/
  | configured {arguments : Arguments} {found env : Environment} {steps : List Step} {state last : σ} :
      Reaches app args start .begun steps state →
      app.configuration args state = .ok (arguments, found) → Observer.adjust app.inOrder found state = (env, last) →
      Reaches app args start (.configured arguments env)
        (steps ++ [.entered .environmentPrepared] ++ Observer.round .environmentPrepared app.inOrder) last
  /-- The container is made. -/
  | created {arguments : Arguments} {env : Environment} {container : Container σ} {steps : List Step} {state last : σ}
      {told : List LogRecord} :
      Reaches app args start (.configured arguments env) steps state →
      app.factory env state = (.ok container, last, told) →
      Reaches app args start (.created arguments env container) (steps ++ [.entered .contextPrepared] ++ [.created]) last
  /-- The demands of a stage are met, and perhaps observers are told. -/
  | next {stage next : Stage σ} {steps : List Step} {state last : σ} :
      Reaches app args start stage steps state → stage.next? = some next → Demand.Met (app.demands state stage) state last →
      Reaches app args start next
        (steps ++ stage.entry ++ Demand.steps (app.demands state stage) ++ Deed.steps (app.told stage))
        (Deed.leave (app.told stage) last)

/-- A run that begins in a state breaks off with an error: it has a container, perhaps, after some steps and with some state. -/
inductive BreaksOff (app : Application σ) (args : List String) (start : σ) :
    RunError → Option (Container σ) → List Step → σ → Prop where
  /-- The configuration is at fault. -/
  | configuring {error : ConfigError} {steps : List Step} {state : σ} :
      app.Reaches args start .begun steps state → app.configuration args state = .error error →
      BreaksOff app args start (RunError.because .environment error.failure) none
        (steps ++ [.entered .environmentPrepared]) state
  /-- There is no container. -/
  | creating {arguments : Arguments} {env : Environment} {failure : Failure} {steps : List Step} {state last : σ}
      {told : List LogRecord} :
      app.Reaches args start (.configured arguments env) steps state →
      app.factory env state = (.error failure, last, told) →
      BreaksOff app args start (RunError.because .container failure) none
        (steps ++ [.entered .contextPrepared] ++ [.created]) last
  /-- A demand is refused: by an initializer, the container or a runner. -/
  | refused {stage : Stage σ} {error : RunError} {steps more : List Step} {state last : σ} :
      app.Reaches args start stage steps state → Demand.Refused (app.demands state stage) state error more last →
      BreaksOff app args start error stage.container? (steps ++ stage.entry ++ more) last
  /-- An observer fails at the end. -/
  | finishing {arguments : Arguments} {env : Environment} {container : Container σ} {error : RunError} {steps : List Step}
      {state : σ} :
      app.Reaches args start (.served arguments env container) steps state →
      Observer.promoted? (some container) app.inOrder state = some error →
      BreaksOff app args start error (some container)
        (steps ++ [.entered .finished] ++ Deed.steps (app.toldFinished container)) (Deed.leave (app.toldFinished container) state)

variable {app : Application σ} {args : List String} {start : σ} {origin : World σ} {boot : Bootstrap σ}
variable {arguments : Arguments} {env : Environment} {container : Container σ} {stage stage' : Stage σ}
variable {phase : Option Phase} {has : Option (Container σ)} {steps steps' more : List Step} {state state' last : σ}
variable {error : RunError}

/-! ## The configuration -/

/-- The configuration comes from a command line that has a reading and a search that came to its end. -/
theorem configuration_eq_ok {found : Environment} (h : app.configuration args state = .ok (arguments, found)) :
    ∃ env result, app.searchEnvironment args = .ok (arguments, env) ∧
      (app.discovery.run (app.resources state) env).result = .ok result ∧
      (app.discovery.run (app.resources state) env).environment = found := by
  rcases hsearch : app.searchEnvironment args with error | ⟨arguments', env⟩
  · simp [configuration, hsearch] at h
  · rcases hresult : (app.discovery.run (app.resources state) env).result with error | result
    · simp [configuration, hsearch, hresult] at h
    · simp only [configuration, hsearch, hresult] at h
      obtain ⟨rfl, rfl⟩ := Prod.mk.inj (Except.ok.inj h)
      exact ⟨env, result, rfl, hresult, rfl⟩

/-- The configuration is at fault if the command line has no reading or the search fails. -/
theorem configuration_eq_error {fault : ConfigError} (h : app.configuration args state = .error fault) :
    app.searchEnvironment args = .error fault ∨
      ∃ arguments env, app.searchEnvironment args = .ok (arguments, env) ∧
        (app.discovery.run (app.resources state) env).result = .error fault := by
  rcases hsearch : app.searchEnvironment args with error | ⟨arguments, env⟩
  · simp only [configuration, hsearch] at h
    exact .inl h
  · rcases hresult : (app.discovery.run (app.resources state) env).result with error | result
    · simp only [configuration, hsearch, hresult] at h
      obtain rfl := Except.error.inj h
      exact .inr ⟨arguments, env, rfl, hresult⟩
    · simp [configuration, hsearch, hresult] at h

/-! ## Which stages are reached -/

/-- A run reaches a stage in one way only. -/
theorem Reaches.unique (h : app.Reaches args start stage steps state) (h' : app.Reaches args start stage' steps' state')
    (hleft : stage.left = stage'.left) : stage = stage' ∧ steps = steps' ∧ state = state' := by
  induction h generalizing stage' steps' state' with
  | begun =>
    cases h' with
    | begun => exact ⟨rfl, rfl, rfl⟩
    | configured | created => nomatch hleft
    | next _ hnext _ => exact absurd (Stage.left_lt_of_next hnext) (by simp [← hleft])
  | configured _ hconfiguration hadjust ih =>
    cases h' with
    | begun | created => nomatch hleft
    | configured h' hconfiguration' hadjust' =>
      obtain ⟨-, rfl, rfl⟩ := ih h' rfl
      obtain ⟨rfl, rfl⟩ := Prod.mk.inj (Except.ok.inj (hconfiguration.symm.trans hconfiguration'))
      obtain ⟨rfl, rfl⟩ := Prod.mk.inj (hadjust.symm.trans hadjust')
      exact ⟨rfl, rfl, rfl⟩
    | next _ hnext _ => exact absurd (Stage.left_lt_of_next hnext) (by simp [← hleft])
  | created _ hfactory ih =>
    cases h' with
    | begun | configured => nomatch hleft
    | created h' hfactory' =>
      obtain ⟨hstage, rfl, rfl⟩ := ih h' rfl
      obtain ⟨rfl, rfl⟩ := Stage.configured.inj hstage
      obtain ⟨hcontainer, hlast⟩ := Prod.mk.inj (hfactory.symm.trans hfactory')
      obtain rfl := Except.ok.inj hcontainer
      exact ⟨rfl, rfl, (Prod.mk.inj hlast).1⟩
    | next _ hnext _ => exact absurd (Stage.left_lt_of_next hnext) (by simp [← hleft])
  | next _ hnext hmet ih =>
    have hlt := Stage.left_lt_of_next hnext
    cases h' with
    | begun | configured | created => exact absurd hlt (by simp [hleft])
    | next h' hnext' hmet' =>
      obtain ⟨rfl, rfl, rfl⟩ := ih h' (by rw [Stage.left_of_next hnext, Stage.left_of_next hnext', hleft])
      obtain rfl := Option.some.inj (hnext.symm.trans hnext')
      obtain rfl := hmet.unique hmet'
      exact ⟨rfl, rfl, rfl⟩

/-- Ahead of every stage but the first there is another one. -/
theorem Reaches.pred (h : app.Reaches args start stage steps state) (hlt : stage.left < 6) :
    ∃ stage' steps' state', app.Reaches args start stage' steps' state' ∧ stage'.left = stage.left + 1 := by
  cases h with
  | begun => exact absurd hlt (Nat.lt_irrefl 6)
  | configured h => exact ⟨_, _, _, h, rfl⟩
  | created h => exact ⟨_, _, _, h, rfl⟩
  | next h hnext => exact ⟨_, _, _, h, Stage.left_of_next hnext⟩

/-- A run that reaches a stage reached all those ahead of it. -/
theorem Reaches.earlier (h : app.Reaches args start stage steps state) (count : Nat) (hcount : stage.left + count ≤ 6) :
    ∃ stage' steps' state', app.Reaches args start stage' steps' state' ∧ stage'.left = stage.left + count := by
  induction count with
  | zero => exact ⟨stage, steps, state, h, rfl⟩
  | succ count ih =>
    obtain ⟨stage', steps', state', h', hleft⟩ := ih (by omega)
    obtain ⟨stage'', steps'', state'', h'', hleft'⟩ := h'.pred (by omega)
    exact ⟨stage'', steps'', state'', h'', by omega⟩

/-- The container of a stage that is reached is the one that the factory made. -/
theorem Reaches.created_of_container (h : app.Reaches args start stage steps state) (hcontainer : stage.container? = some container) :
    ∃ arguments env steps state, app.Reaches args start (.created arguments env container) steps state := by
  induction h with
  | begun | configured => nomatch hcontainer
  | created h hfactory =>
    obtain rfl := Option.some.inj hcontainer
    exact ⟨_, _, _, _, h.created hfactory⟩
  | next _ hnext _ ih => exact ih ((Stage.container?_of_next hnext).symm.trans hcontainer)

/-- A run that begins in a state reaches no stage behind this one. -/
def IsLast (app : Application σ) (args : List String) (start : σ) (stage : Stage σ) : Prop :=
  ∀ stage' steps state, app.Reaches args start stage' steps state → stage.left ≤ stage'.left

/-- A stage is the last one if the next one is not reached. -/
theorem isLast_of_not_next (hlast : ∀ next steps state, app.Reaches args start next steps state → next.left + 1 ≠ stage.left) :
    app.IsLast args start stage := by
  intro stage' steps' state' h'
  refine Nat.le_of_not_lt fun hlt => ?_
  have hsix := stage.left_le
  obtain ⟨next, steps, state, hnext, hleft⟩ := h'.earlier (stage.left - 1 - stage'.left) (by omega)
  exact hlast next steps state hnext (by omega)

/-! ## Runs break off or succeed -/

/-- The demands of a stage belong to the phase of the next one. -/
theorem phase_of_demand {demand : Demand σ} (h : demand ∈ app.demands state stage) :
    ∃ next, stage.next? = some next ∧ demand.fault.phase? = some next.phase := by
  cases stage with
  | begun | configured | served => nomatch h
  | created arguments env container =>
    obtain ⟨initializer, -, rfl⟩ := List.mem_map.mp h
    exact ⟨_, rfl, rfl⟩
  | prepared arguments env container =>
    simp only [demands, filling, List.mem_cons, List.not_mem_nil, or_false] at h
    obtain rfl | rfl | rfl := h <;> exact ⟨_, rfl, rfl⟩
  | filled arguments env container =>
    obtain rfl | hhook := List.mem_cons.mp h
    · exact ⟨_, rfl, rfl⟩
    · split at hhook
      · obtain rfl := List.mem_singleton.mp hhook
        exact ⟨_, rfl, rfl⟩
      · nomatch hhook
  | activated arguments env container =>
    obtain ⟨runner, -, rfl⟩ := List.mem_map.mp h
    exact ⟨_, rfl, rfl⟩

/-- The error of a demand of a stage that is refused belongs to the phase of the next one. -/
theorem phase_of_refused (h : Demand.Refused (app.demands state stage) state error more last) :
    ∃ next, stage.next? = some next ∧ error.phase? = some next.phase := by
  obtain ⟨demand, hmem, hphase⟩ := h.exists_demand
  rw [hphase]
  exact phase_of_demand hmem

/-- A run that reaches a stage breaks off right behind it or reaches the next one, unless it is the last. -/
theorem Reaches.breaksOff_or_next (h : app.Reaches args start stage steps state) (hleft : stage.left ≠ 0) :
    (∃ error has steps state, app.BreaksOff args start error has steps state) ∨
      ∃ stage' steps' state', app.Reaches args start stage' steps' state' ∧ stage'.left + 1 = stage.left := by
  have hdemands {next : Stage σ} (hnext : stage.next? = some next) :
      (∃ error has steps state, app.BreaksOff args start error has steps state) ∨
        ∃ stage' steps' state', app.Reaches args start stage' steps' state' ∧ stage'.left + 1 = stage.left := by
    rcases Demand.met_or_refused (app.demands state stage) state with ⟨last, hmet⟩ | ⟨error, more, last, hrefused⟩
    · exact .inr ⟨_, _, _, h.next hnext hmet, (Stage.left_of_next hnext).symm⟩
    · exact .inl ⟨_, _, _, _, .refused h hrefused⟩
  cases stage with
  | begun =>
    rcases hconfiguration : app.configuration args state with error | ⟨arguments, found⟩
    · exact .inl ⟨_, _, _, _, .configuring h hconfiguration⟩
    · exact .inr ⟨_, _, _, h.configured hconfiguration rfl, rfl⟩
  | configured arguments env =>
    rcases hfactory : app.factory env state with ⟨failure | container, last, told⟩
    · exact .inl ⟨_, _, _, _, .creating h hfactory⟩
    · exact .inr ⟨_, _, _, h.created hfactory, rfl⟩
  | created | prepared | filled | activated => exact hdemands rfl
  | served => exact absurd rfl hleft

/-- A run that reaches a stage breaks off, or its runners get done. -/
theorem Reaches.breaksOff_or_served (h : app.Reaches args start stage steps state) :
    (∃ error has steps state, app.BreaksOff args start error has steps state) ∨
      ∃ arguments env container steps state, app.Reaches args start (.served arguments env container) steps state := by
  induction hleft : stage.left generalizing stage steps state with
  | zero =>
    match stage, hleft with
    | .served .., _ => exact .inr ⟨_, _, _, _, _, h⟩
  | succ left ih =>
    rcases h.breaksOff_or_next (by omega) with hbreak | ⟨stage', steps', state', h', hleft'⟩
    · exact .inl hbreak
    · exact ih h' (by omega)

/-- A run breaks off, or its runners get done and no observer finds fault with its end. -/
theorem breaksOff_or_succeeds (app : Application σ) (args : List String) (start : σ) :
    (∃ error has steps state, app.BreaksOff args start error has steps state) ∨
      ∃ arguments env container steps state, app.Reaches args start (.served arguments env container) steps state ∧
        Observer.promoted? (some container) app.inOrder state = none := by
  have hbegun : app.Reaches args start .begun ([.entered .starting] ++ Observer.round .starting app.inOrder)
      (app.begun args start) := .begun
  rcases hbegun.breaksOff_or_served with
    hbreak | ⟨arguments, env, container, steps, state, h⟩
  · exact .inl hbreak
  · rcases hpromoted : Observer.promoted? (some container) app.inOrder state with _ | error
    · exact .inr ⟨arguments, env, container, steps, state, h, hpromoted⟩
    · exact .inl ⟨_, _, _, _, .finishing h hpromoted⟩

/-- Where a demand of a stage is refused, the next stage is not reached. -/
theorem Reaches.not_next_of_refused (h : app.Reaches args start stage steps state)
    (hrefused : Demand.Refused (app.demands state stage) state error more last)
    (h' : app.Reaches args start stage' steps' state') : stage'.left + 1 ≠ stage.left := by
  intro hleft
  cases h' with
  | begun => cases stage <;> nomatch hleft
  | configured =>
    match stage, hleft with
    | .begun, _ => nomatch hrefused
  | created =>
    match stage, hleft with
    | .configured .., _ => nomatch hrefused
  | next h' hnext hmet =>
    obtain ⟨rfl, rfl, rfl⟩ := h'.unique h (by rw [Stage.left_of_next hnext, hleft])
    exact hmet.not_refused hrefused

end Application

end Ignition
