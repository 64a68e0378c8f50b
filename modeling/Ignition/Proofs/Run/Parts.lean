import Ignition.Run.Application

/-!
# The parts of a run

What the parts of a run do, whatever the log says. A part *leads* from what was kept to what is kept then by some steps and with some
state (`World.Leads`). Most parts do *deeds*, calls whose answers change nothing but the log (`Running.Does`): every notification is
such a list of deeds, one for each observer. The others make *demands* one after the other, up to the first that is refused
(`Booting.Makes`): so are initializers called, the container filled and made active, and runners called.

Observers of the environment pass it on from one to the next (`Observer.adjust`), and the end of a run that succeeded depends on the
first observer that fails (`Observer.promoted?`).
-/

namespace Ignition

variable {σ α β : Type}

/-! ## What parts lead to -/

/-- From what was kept to what is kept after some steps, with a state; failures and the last resort are as before. -/
structure World.Leads (before : World σ) (steps : List Step) (state : σ) (after : World σ) : Prop where
  /-- The state is the one named. -/
  state_eq : after.state = state
  /-- The steps come behind those kept before. -/
  steps_eq : after.steps = before.steps ++ steps
  /-- No failure was reported. -/
  failures_eq : after.failures = before.failures
  /-- The last resort learned nothing. -/
  suppressor_eq : after.suppressor = before.suppressor

namespace World.Leads

variable {before between after : World σ} {steps more : List Step} {state last : σ}

/-- Doing nothing leads from a world to itself. -/
theorem refl (world : World σ) : world.Leads [] world.state world :=
  ⟨rfl, (List.append_nil _).symm, rfl, rfl⟩

/-- What leads somewhere and then on leads all the way, by both lists of steps. -/
theorem trans (h : before.Leads steps state between) (hmore : between.Leads more last after) :
    before.Leads (steps ++ more) last after where
  state_eq := hmore.state_eq
  steps_eq := by rw [hmore.steps_eq, h.steps_eq, List.append_assoc]
  failures_eq := hmore.failures_eq.trans h.failures_eq
  suppressor_eq := hmore.suppressor_eq.trans h.suppressor_eq

/-- An event changes nothing but the log. -/
theorem tell (event : LogEvent) (world : World σ) : world.Leads [] world.state ((Running.tell event).run world).2 :=
  ⟨rfl, (List.append_nil _).symm, rfl, rfl⟩

end World.Leads

/-- A call whose answer changes nothing: its step, and what becomes of the state. -/
structure Deed (σ : Type) where
  /-- The step that is kept of it. -/
  step : Step
  /-- What becomes of the state. -/
  effect : σ → σ

namespace Deed

/-- The call of a collaborator as a deed. -/
def ofAction (step : Step) (action : Action σ α) : Deed σ where
  step
  effect state := (action state).2.1

/-- The steps that are kept of deeds. -/
def steps (deeds : List (Deed σ)) : List Step :=
  deeds.map (·.step)

/-- What deeds leave of a state, done one after the other. -/
def leave (deeds : List (Deed σ)) (state : σ) : σ :=
  deeds.foldl (fun state deed => deed.effect state) state

@[simp] theorem steps_nil : steps ([] : List (Deed σ)) = [] := rfl

/-- The steps of some deeds and others behind them. -/
@[simp] theorem steps_append (deeds more : List (Deed σ)) : steps (deeds ++ more) = steps deeds ++ steps more :=
  List.map_append

/-- What some deeds leave is what the others behind them begin with. -/
@[simp] theorem leave_append (deeds more : List (Deed σ)) (state : σ) :
    leave (deeds ++ more) state = leave more (leave deeds state) :=
  List.foldl_append

end Deed

/-- Two parts run one behind the other, each from the world that it finds. -/
theorem Running.run_bind (part : Running σ α) (next : α → Running σ β) (world : World σ) :
    (part >>= next).run world = (next (part.run world).1).run (part.run world).2 := rfl

/-- A look at the state changes nothing. -/
theorem Running.run_look (view : σ → α) (world : World σ) : (Running.look view).run world = (view world.state, world) := rfl

/-- A call keeps its step and its events, and the state that it leaves. -/
theorem Running.run_perform (step : Step) (action : Action σ α) (world : World σ) :
    (Running.perform step action).run world =
      ((action world.state).1,
        { world with
          state := (action world.state).2.1
          log := world.log ++ (action world.state).2.2
          steps := world.steps ++ [step] }) := rfl

/-- A part of a run that does exactly these deeds, whatever it is told. -/
def Running.Does (part : Running σ α) (deeds : List (Deed σ)) : Prop :=
  ∀ world : World σ, world.Leads (Deed.steps deeds) (Deed.leave deeds world.state) (part.run world).2

namespace Running.Does

variable {part : Running σ α} {next : α → Running σ β} {deeds more : List (Deed σ)}

/-- Giving an answer is no deed. -/
theorem pure (answer : α) : Does (Pure.pure answer : Running σ α) [] :=
  fun world => .refl world

/-- An event in the log is no deed. -/
theorem tell (event : LogEvent) : Does (Running.tell event : Running σ Unit) [] :=
  fun world => .tell event world

/-- A call is one deed. -/
theorem perform (step : Step) (action : Action σ α) : Does (Running.perform step action) [Deed.ofAction step action] :=
  fun _ => ⟨rfl, rfl, rfl, rfl⟩

/-- A part and another behind it, which does the same for every answer, do the deeds of both. -/
theorem bind (h : Does part deeds) (hnext : ∀ answer, Does (next answer) more) : Does (part >>= next) (deeds ++ more) := by
  intro world
  have hboth := (h world).trans (hnext (part.run world).1 (part.run world).2)
  rw [(h world).state_eq, ← Deed.leave_append, ← Deed.steps_append] at hboth
  exact hboth

end Running.Does

/-! ## Notifications -/

namespace Observer

/-- The deeds by which observers are notified of something. -/
def told (notice : Notice) (act : Observer σ → Action σ (Except Failure Unit)) (observers : List (Observer σ)) :
    List (Deed σ) :=
  observers.map fun observer => Deed.ofAction (.notified notice observer.name) (act observer)

/-- The steps by which observers are notified of something. -/
def round (notice : Notice) (observers : List (Observer σ)) : List Step :=
  observers.map fun observer => .notified notice observer.name

/-- What observers make of an environment and of the state, one after the other. -/
def adjust : List (Observer σ) → Environment → σ → Environment × σ
  | [], env, state => (env, state)
  | observer :: rest, env, state =>
    adjust rest (observer.environmentPrepared env state).1.1 (observer.environmentPrepared env state).2.1

/-- The error of the first observer that fails at the end of a run that succeeded. -/
def promoted? (container : Option (Container σ)) : List (Observer σ) → σ → Option RunError
  | [], _ => none
  | observer :: rest, state =>
    match observer.finished container none state with
    | (.ok (), state, _) => promoted? container rest state
    | (.error failure, _, _) => some (RunError.because (.observer observer.name .finished) failure)

/-- The notifications of observers keep one step for each of them. -/
@[simp] theorem steps_told (notice : Notice) (act : Observer σ → Action σ (Except Failure Unit)) (observers : List (Observer σ)) :
    Deed.steps (told notice act observers) = round notice observers := by
  simp [Deed.steps, told, round, Deed.ofAction]

/-- Every observer is notified, whatever the others answer. -/
theorem does_notify (notice : Notice) (act : Observer σ → Action σ (Except Failure Unit)) (observers : List (Observer σ)) :
    (notify notice act observers).Does (told notice act observers) := by
  induction observers with
  | nil => exact .pure ()
  | cons observer rest ih =>
    refine (Running.Does.perform _ _).bind fun answer => ?_
    cases answer with
    | ok => exact ih
    | error failure => exact (Running.Does.tell _).bind fun _ => ih

/-- Every observer is told of the end of a run, whatever the others answer. Those behind an observer that failed are told the same, but
their answers count no more. -/
theorem does_notifyFinished (container : Option (Container σ)) (error : Option RunError) (observers : List (Observer σ)) :
    (notifyFinished container error observers).Does
      (told (.finished error.isSome) (·.finished container error) observers) := by
  induction observers with
  | nil => exact .pure none
  | cons observer rest ih =>
    refine (Running.Does.perform _ _).bind fun answer => ?_
    cases answer with
    | ok => exact ih
    | error failure =>
      cases error with
      | some error => exact (Running.Does.tell _).bind fun _ => ih
      | none =>
        have hrest := (does_notify (.finished false) (·.finished container none) rest).bind fun _ =>
          Running.Does.pure (some (RunError.because (.observer observer.name .finished) failure))
        rwa [List.append_nil] at hrest

/-- The first observer that fails at the end makes a run fail that succeeded, and no observer another one. -/
theorem notifyFinished_answer (container : Option (Container σ)) (error : Option RunError) (observers : List (Observer σ))
    (world : World σ) :
    ((notifyFinished container error observers).run world).1 =
      if error.isSome then none else promoted? container observers world.state := by
  induction observers generalizing world with
  | nil => cases error <;> rfl
  | cons observer rest ih =>
    rw [notifyFinished, StateT.run_bind, Running.run_perform]
    cases error with
    | some error =>
      rcases observer.finished container (some error) world.state with ⟨_ | failure, state, told⟩
      · exact ih _
      · exact ih _
    | none =>
      simp only [promoted?]
      rcases observer.finished container none world.state with ⟨_ | failure, state, told⟩
      · rfl
      · exact ih _

/-- The error belongs to the end of the run. -/
theorem phase_of_promoted {container : Option (Container σ)} {observers : List (Observer σ)} {state : σ} {error : RunError}
    (h : promoted? container observers state = some error) : error.phase? = some .finished := by
  induction observers generalizing state with
  | nil => nomatch h
  | cons observer rest ih =>
    rw [promoted?] at h
    split at h
    · exact ih h
    · obtain rfl := Option.some.inj h
      rfl

/-- Every observer is told of the environment; what they make of it is the answer. -/
theorem run_notifyEnvironmentPrepared (env : Environment) (observers : List (Observer σ)) (world : World σ) :
    ((notifyEnvironmentPrepared env observers).run world).1 = (adjust observers env world.state).1 ∧
      world.Leads (round .environmentPrepared observers) (adjust observers env world.state).2
        ((notifyEnvironmentPrepared env observers).run world).2 := by
  induction observers generalizing env world with
  | nil => exact ⟨rfl, .refl world⟩
  | cons observer rest ih =>
    rw [notifyEnvironmentPrepared, StateT.run_bind, Running.run_perform]
    simp only [adjust]
    have hone (state : σ) (log : List LogRecord) : world.Leads [.notified .environmentPrepared observer.name] state
        { world with state, log, steps := world.steps ++ [.notified .environmentPrepared observer.name] } :=
      ⟨rfl, rfl, rfl, rfl⟩
    rcases observer.environmentPrepared env world.state with ⟨⟨env, failure | _⟩, state, told⟩
    · exact ⟨(ih env _).1, (hone state _).trans (ih env _).2⟩
    · exact ⟨(ih env _).1, (hone state _).trans (ih env _).2⟩

end Observer

/-! ## Demands -/

/-- A call of a collaborator whose failure fails the run. -/
structure Demand (σ : Type) where
  /-- What is at fault if it fails. -/
  fault : RunFault
  /-- The step that is kept of it. -/
  step : Step
  /-- The call. -/
  action : Action σ (Except Failure Unit)

namespace Demand

/-- The steps that are kept of demands which are met. -/
def steps (demands : List (Demand σ)) : List Step :=
  demands.map (·.step)

/-- Demands, made one after the other in a state, are met and leave a state. -/
inductive Met : List (Demand σ) → σ → σ → Prop where
  | nil (state : σ) : Met [] state state
  | cons {demand : Demand σ} {rest : List (Demand σ)} {state next last : σ} {told : List LogRecord} :
      demand.action state = (.ok (), next, told) → Met rest next last → Met (demand :: rest) state last

/-- One of the demands, made one after the other in a state, is refused: with an error, after some steps, and it leaves a state. -/
inductive Refused : List (Demand σ) → σ → RunError → List Step → σ → Prop where
  | here {demand : Demand σ} {rest : List (Demand σ)} {state last : σ} {failure : Failure} {told : List LogRecord} :
      demand.action state = (.error failure, last, told) →
      Refused (demand :: rest) state (RunError.because demand.fault failure) [demand.step] last
  | later {demand : Demand σ} {rest : List (Demand σ)} {state next last : σ} {error : RunError} {steps : List Step}
      {told : List LogRecord} :
      demand.action state = (.ok (), next, told) → Refused rest next error steps last →
      Refused (demand :: rest) state error (demand.step :: steps) last

variable {demands : List (Demand σ)} {state last last' : σ} {error : RunError} {steps : List Step}

/-- Demands are met, or one of them is refused. -/
theorem met_or_refused (demands : List (Demand σ)) (state : σ) :
    (∃ last, Met demands state last) ∨ ∃ error steps last, Refused demands state error steps last := by
  induction demands generalizing state with
  | nil => exact .inl ⟨state, .nil state⟩
  | cons demand rest ih =>
    rcases haction : demand.action state with ⟨failure | _, next, told⟩
    · exact .inr ⟨_, _, _, .here haction⟩
    · rcases ih next with ⟨last, hmet⟩ | ⟨error, steps, last, hrefused⟩
      · exact .inl ⟨last, .cons haction hmet⟩
      · exact .inr ⟨error, _, last, .later haction hrefused⟩

/-- Demands that are met leave one state only. -/
theorem Met.unique (h : Met demands state last) (h' : Met demands state last') : last = last' := by
  induction h with
  | nil => cases h'; rfl
  | cons haction _ ih =>
    obtain _ | ⟨haction', hmet'⟩ := h'
    obtain ⟨_, rfl, _⟩ := Prod.mk.injEq .. ▸ haction.symm.trans haction'
    exact ih hmet'

/-- Demands that are met are not refused. -/
theorem Met.not_refused (h : Met demands state last) : ¬ Refused demands state error steps last' := by
  intro hrefused
  induction h generalizing steps with
  | nil => nomatch hrefused
  | cons haction _ ih =>
    cases hrefused with
    | here haction' => exact nomatch haction.symm.trans haction'
    | later haction' hrest =>
      obtain ⟨_, rfl, _⟩ := Prod.mk.injEq .. ▸ haction.symm.trans haction'
      exact ih hrest

/-- The error is about one of the demands. -/
theorem Refused.exists_demand (h : Refused demands state error steps last) :
    ∃ demand ∈ demands, error.phase? = demand.fault.phase? := by
  induction h with
  | here => exact ⟨_, List.mem_cons_self, rfl⟩
  | later _ _ ih =>
    obtain ⟨demand, hmem, hphase⟩ := ih
    exact ⟨demand, List.mem_cons_of_mem _ hmem, hphase⟩

/-- Up to the demand that is refused, the steps are those of the demands. -/
theorem Refused.isPrefix (h : Refused demands state error steps last) : steps <+: Demand.steps demands := by
  induction h with
  | here => exact List.prefix_append [_] _
  | later _ _ ih => exact (List.prefix_cons_inj _).mpr ih

end Demand

/-! ## Where a run is -/

/-- A run that began with what was kept is in a phase and has a container, perhaps, after some steps and with a state. -/
structure Bootstrap.At (origin : World σ) (phase : Option Phase) (container : Option (Container σ)) (steps : List Step) (state : σ)
    (boot : Bootstrap σ) : Prop where
  /-- The phase is the one named. -/
  phase_eq : boot.phase = phase
  /-- The container is the one named. -/
  container_eq : boot.container = container
  /-- The steps and the state are those named. -/
  leads : origin.Leads steps state boot.world

/-- Two parts run one behind the other, each from the bootstrap that it finds. -/
theorem Bootstrap.run_bind (part : StateM (Bootstrap σ) α) (next : α → StateM (Bootstrap σ) β) (boot : Bootstrap σ) :
    (part >>= next).run boot = (next (part.run boot).1).run (part.run boot).2 := rfl

theorem Bootstrap.run_get (boot : Bootstrap σ) : (get : StateM (Bootstrap σ) (Bootstrap σ)).run boot = (boot, boot) := rfl

/-- A part of a run happens in the world of the bootstrap and leaves the rest of it. -/
theorem Bootstrap.run_within (part : Running σ α) (boot : Bootstrap σ) :
    (Bootstrap.within part).run boot = ((part.run boot.world).1, { boot with world := (part.run boot.world).2 }) := rfl

/-- A part of a run answers, or fails, and comes to where something holds. -/
def Booting.Yields (part : Booting σ α) (boot : Bootstrap σ) (result : Except RunError α) (there : Bootstrap σ → Prop) : Prop :=
  ∃ after, part.run.run boot = (result, after) ∧ there after

namespace Booting

variable {boot : Bootstrap σ} {origin : World σ} {phase : Option Phase} {container : Option (Container σ)} {steps : List Step} {state : σ}

/-- Two parts of a run, one behind the other: the second goes on where the first succeeded, and where the first failed, both did. -/
theorem run_bind (part : Booting σ α) (next : α → Booting σ β) (boot : Bootstrap σ) :
    (part >>= next).run.run boot = match part.run.run boot with
      | (.ok answer, after) => (next answer).run.run after
      | (.error error, after) => (.error error, after) := by
  rw [ExceptT.run_bind, StateT.run_bind]
  obtain ⟨result, after⟩ := part.run.run boot
  cases result with
  | ok answer => rfl
  | error error => rfl

theorem run_get (boot : Bootstrap σ) : (get : Booting σ (Bootstrap σ)).run.run boot = (.ok boot, boot) := rfl

/-- What a part yields that succeeds is where the next part begins. -/
theorem Yields.bind {part : Booting σ α} {next : α → Booting σ β} {answer : α} {result : Except RunError β}
    {here there : Bootstrap σ → Prop} (h : part.Yields boot (.ok answer) here)
    (hnext : ∀ after, here after → (next answer).Yields after result there) : (part >>= next).Yields boot result there := by
  obtain ⟨between, hpart, hhere⟩ := h
  obtain ⟨after, hrest, hthere⟩ := hnext between hhere
  exact ⟨after, by rw [run_bind, hpart]; exact hrest, hthere⟩

/-- Behind a part that fails nothing happens. -/
theorem Yields.bind_error {part : Booting σ α} {next : α → Booting σ β} {error : RunError} {there : Bootstrap σ → Prop}
    (h : part.Yields boot (.error error) there) : (part >>= next).Yields boot (.error error) there := by
  obtain ⟨after, hpart, hthere⟩ := h
  exact ⟨after, by rw [run_bind, hpart], hthere⟩

/-- An answer by itself leaves everything as it is. -/
theorem Yields.pure (answer : α) {there : Bootstrap σ → Prop} (h : there boot) :
    (Pure.pure answer : Booting σ α).Yields boot (.ok answer) there :=
  ⟨boot, rfl, h⟩

/-- A part that does not fail comes to where the deeds lead. -/
theorem yields_within {part : Running σ α} {more : List Step} {last : σ} (h : Bootstrap.At origin phase container steps state boot)
    (hpart : boot.world.Leads more last (part.run boot.world).2) :
    (within part).Yields boot (.ok (part.run boot.world).1) (Bootstrap.At origin phase container (steps ++ more) last) :=
  ⟨{ boot with world := (part.run boot.world).2 }, rfl, h.phase_eq, h.container_eq, h.leads.trans hpart⟩

/-- A part that does deeds keeps their steps and leaves their state. -/
theorem yields_deeds {part : Running σ Unit} {deeds : List (Deed σ)} (h : Bootstrap.At origin phase container steps state boot)
    (hpart : part.Does deeds) :
    (within part).Yields boot (.ok ())
      (Bootstrap.At origin phase container (steps ++ Deed.steps deeds) (Deed.leave deeds state)) := by
  rw [← h.leads.state_eq]
  exact yields_within h (hpart boot.world)

/-- An event in the log leaves the place where a run is. -/
theorem yields_tell {event : LogEvent} (h : Bootstrap.At origin phase container steps state boot) :
    (tell event).Yields boot (.ok ()) (Bootstrap.At origin phase container steps state) := by
  have hyields := yields_deeds h (.tell event)
  rwa [Deed.steps_nil, List.append_nil] at hyields

/-- A look at the state tells the state of the place where a run is. -/
theorem yields_look {view : σ → α} (h : Bootstrap.At origin phase container steps state boot) :
    (within (Running.look view)).Yields boot (.ok (view state)) (Bootstrap.At origin phase container steps state) := by
  rw [← h.leads.state_eq]
  exact ⟨boot, rfl, h.phase_eq, h.container_eq, h.leads.state_eq ▸ h.leads⟩

/-- A phase is entered from where it may be. -/
theorem yields_enter {next : Phase} (h : Bootstrap.At origin phase container steps state boot)
    (hmay : Phase.mayEnter phase next = true) :
    (enter next).Yields boot (.ok ()) (Bootstrap.At origin (some next) container (steps ++ [.entered next]) state) := by
  refine ⟨{ boot with phase := some next, world := { boot.world with steps := boot.world.steps ++ [.entered next] } }, ?_,
    rfl, h.container_eq, h.leads.trans ⟨h.leads.state_eq, rfl, rfl, rfl⟩⟩
  rw [enter, run_bind, run_get]
  simp only [h.phase_eq, Phase.enter, hmay, if_true]
  rfl

/-- A demand that is met. -/
theorem yields_demand {fault : RunFault} {step : Step} {action : Action σ (Except Failure α)} {answer : α} {last : σ}
    {told : List LogRecord} (h : Bootstrap.At origin phase container steps state boot)
    (haction : action state = (.ok answer, last, told)) :
    (demand fault step action).Yields boot (.ok answer) (Bootstrap.At origin phase container (steps ++ [step]) last) := by
  rw [← h.leads.state_eq] at haction
  refine (yields_within h ⟨rfl, rfl, rfl, rfl⟩).bind fun after hafter => ?_
  rw [Running.run_perform, haction] at hafter ⊢
  exact .pure answer hafter

/-- A demand that is refused. -/
theorem yields_demand_error {fault : RunFault} {step : Step} {action : Action σ (Except Failure α)} {failure : Failure} {last : σ}
    {told : List LogRecord} (h : Bootstrap.At origin phase container steps state boot)
    (haction : action state = (.error failure, last, told)) :
    (demand fault step action).Yields boot (.error (RunError.because fault failure))
      (Bootstrap.At origin phase container (steps ++ [step]) last) := by
  rw [← h.leads.state_eq] at haction
  refine (yields_within h ⟨rfl, rfl, rfl, rfl⟩).bind fun after hafter => ?_
  rw [Running.run_perform, haction] at hafter ⊢
  exact ⟨after, rfl, hafter⟩

/-- A part of a run that makes demands one after the other, up to the first that is refused. -/
structure Makes (part : Booting σ Unit) (demands : List (Demand σ)) : Prop where
  /-- It succeeds if all are met. -/
  met : ∀ {boot : Bootstrap σ} {origin : World σ} {phase : Option Phase} {container : Option (Container σ)} {steps : List Step}
    {state last : σ}, Bootstrap.At origin phase container steps state boot → Demand.Met demands state last →
    part.Yields boot (.ok ()) (Bootstrap.At origin phase container (steps ++ Demand.steps demands) last)
  /-- It fails if one is refused. -/
  refused : ∀ {boot : Bootstrap σ} {origin : World σ} {phase : Option Phase} {container : Option (Container σ)} {steps : List Step}
    {state last : σ} {error : RunError} {more : List Step}, Bootstrap.At origin phase container steps state boot →
    Demand.Refused demands state error more last →
    part.Yields boot (.error error) (Bootstrap.At origin phase container (steps ++ more) last)

namespace Makes

variable {part : Booting σ Unit} {demands : List (Demand σ)}

/-- A part that does nothing demands nothing. -/
theorem pure : Makes (Pure.pure () : Booting σ Unit) [] where
  met h hmet := by
    cases hmet
    simpa [Demand.steps] using Yields.pure () h
  refused _ hrefused := nomatch hrefused

/-- An event in the log is no demand. -/
theorem tell {event : LogEvent} (h : part.Makes demands) : Makes (do Booting.tell event; part) demands where
  met hat hmet := (yields_tell hat).bind fun _ hafter => h.met hafter hmet
  refused hat hrefused := (yields_tell hat).bind fun _ hafter => h.refused hafter hrefused

/-- A demand before a part comes before its demands. -/
theorem cons {fault : RunFault} {step : Step} {action : Action σ (Except Failure Unit)} (h : part.Makes demands) :
    Makes (do Booting.demand fault step action; part) (⟨fault, step, action⟩ :: demands) where
  met hat hmet := by
    obtain _ | ⟨haction, hrest⟩ := hmet
    refine (yields_demand hat haction).bind fun after hafter => ?_
    have hyields := h.met hafter hrest
    rwa [List.append_assoc] at hyields
  refused hat hrefused := by
    cases hrefused with
    | here haction => exact (yields_demand_error hat haction).bind_error
    | later haction hrest =>
      refine (yields_demand hat haction).bind fun after hafter => ?_
      have hyields := h.refused hafter hrest
      rwa [List.append_assoc] at hyields

/-- A demand by itself is the only one. -/
theorem single {fault : RunFault} {step : Step} {action : Action σ (Except Failure Unit)} :
    Makes (Booting.demand fault step action) [⟨fault, step, action⟩] := by
  have hmakes : Makes (do Booting.demand fault step action; Pure.pure ()) [⟨fault, step, action⟩] := cons pure
  rwa [bind_pure_unit] at hmakes

end Makes

end Booting

/-! ## The demands of a run -/

namespace Application

/-- The calls of initializers. -/
def preparation (container : Container σ) (initializers : List (Initializer σ)) : List (Demand σ) :=
  initializers.map fun initializer =>
    ⟨.initializer initializer.name, .initialized initializer.name, initializer.prepare container⟩

/-- The calls that give the container what it is made of: two singletons and the sources. -/
def filling (container : Container σ) (arguments : Arguments) (env : Environment) (sources : List String) : List (Demand σ) :=
  [⟨.load, .registered SingletonName.arguments, container.register SingletonName.arguments (.arguments arguments)⟩,
    ⟨.load, .registered SingletonName.environment, container.register SingletonName.environment (.environment env)⟩,
    ⟨.load, .loaded, container.load sources⟩]

/-- The calls that make the container active, perhaps with a shutdown hook. -/
def activation (container : Container σ) (shutdownHook : Bool) : List (Demand σ) :=
  ⟨.refresh, .refreshed, container.refresh⟩ ::
    if shutdownHook then [⟨.shutdownHook, .hooked, container.installHook⟩] else []

/-- The calls of runners. -/
def service (arguments : Arguments) (runners : List (Runner σ)) : List (Demand σ) :=
  runners.map fun runner => ⟨.runner runner.name, .invoked runner.name, runner.run arguments⟩

/-- Calling the initializers makes one demand for each of them. -/
theorem makes_callInitializers (container : Container σ) (initializers : List (Initializer σ)) :
    (callInitializers container initializers).Makes (preparation container initializers) := by
  induction initializers with
  | nil => exact .pure
  | cons initializer rest ih => exact ih.cons

/-- Filling the container demands the registrations and the sources in their order. -/
theorem makes_loadContainer (container : Container σ) (arguments : Arguments) (env : Environment) (sources : List String) :
    (loadContainer container arguments env sources).Makes (filling container arguments env sources) :=
  Booting.Makes.single.cons.cons

/-- Making the container active demands its refresh, and the hook behind it if there is to be one. -/
theorem makes_activation (container : Container σ) (shutdownHook : Bool) :
    Booting.Makes (do
        Booting.demand .refresh .refreshed container.refresh
        if shutdownHook then Booting.demand .shutdownHook .hooked container.installHook)
      (activation container shutdownHook) := by
  cases shutdownHook with
  | true => exact Booting.Makes.single.cons
  | false => exact Booting.Makes.pure.cons

/-- Calling the runners makes one demand for each of them. -/
theorem makes_callRunners (arguments : Arguments) (runners : List (Runner σ)) :
    (callRunners arguments runners).Makes (service arguments runners) := by
  induction runners with
  | nil => exact .pure
  | cons runner rest ih => exact ih.cons.tell

end Application

end Ignition
