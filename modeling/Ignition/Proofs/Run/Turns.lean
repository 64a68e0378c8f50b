import Ignition.Proofs.Run.Notices
import Ignition.Proofs.Run.Priority
import Mathlib.Data.List.Forall2

/-!
# Whose turn it is

A run calls those who take part in it in the order of their priorities. Every notice goes to all observers, whatever they answer, and
initializers and runners are called up to the first that fails, with whose failure the run ends (`Application.order_of_run`).

A run is told here by its deeds, calls that carry their effect, so that it is clear who was called and not only under which name. Those
of one kind among them are the calls of one sort of collaborators (`Deed.ofKind`). Behind each stage the demands of the stage are made
in turn (`Demand.Made`), and the deeds up to a stage are those of all stages ahead of it (`Application.Reaches.course`).
-/

namespace Ignition

variable {σ α : Type}

/-! ## Kinds of deeds -/

/-- Whether an observer was told something by a step. -/
def Step.isNotification : Step → Bool
  | notified .. => true
  | _ => false

/-- Whether an initializer was called by a step. -/
def Step.isInitialization : Step → Bool
  | initialized _ => true
  | _ => false

/-- Whether a runner was called by a step. -/
def Step.isInvocation : Step → Bool
  | invoked _ => true
  | _ => false

/-- Whether a step is one of the demands that are made at a stage with so many stages behind it. -/
def Step.isMadeAt (left : Nat) : Step → Bool
  | initialized _ => left = 4
  | registered _ | loaded => left = 3
  | refreshed | hooked => left = 2
  | invoked _ => left = 1
  | _ => false

/-- With four stages left, the steps made are the calls of initializers. -/
theorem Step.isMadeAt_four : Step.isMadeAt 4 = Step.isInitialization := by
  funext step
  cases step <;> rfl

/-- With one stage left, they are the calls of runners. -/
theorem Step.isMadeAt_one : Step.isMadeAt 1 = Step.isInvocation := by
  funext step
  cases step <;> rfl

namespace Deed

variable {kind : Step → Bool} {deeds more : List (Deed σ)}

/-- The deeds of one kind. -/
def ofKind (kind : Step → Bool) (deeds : List (Deed σ)) : List (Deed σ) :=
  deeds.filter fun deed => kind deed.step

/-- The deeds of a kind among some deeds and others behind them. -/
@[simp] theorem ofKind_append : ofKind kind (deeds ++ more) = ofKind kind deeds ++ ofKind kind more :=
  List.filter_append ..

/-- Deeds that are all of a kind are all kept. -/
theorem ofKind_eq_self (h : ∀ step ∈ steps deeds, kind step = true) : ofKind kind deeds = deeds :=
  List.filter_eq_self.mpr fun deed hmem => h deed.step (List.mem_map_of_mem hmem)

/-- Of deeds none of which is of a kind, none is kept. -/
theorem ofKind_eq_nil (h : ∀ step ∈ steps deeds, kind step = false) : ofKind kind deeds = [] :=
  List.filter_eq_nil_iff.mpr fun deed hmem => Bool.eq_false_iff.mp (h deed.step (List.mem_map_of_mem hmem))

end Deed

/-! ## Observers in turn -/

/-- A call by which an observer is told something. -/
inductive Telling : Deed σ → Notice × Observer σ → Prop where
  | starting (observer : Observer σ) (args sources : List String) :
      Telling (Deed.ofAction (.notified .starting observer.name) (observer.starting args sources)) (.starting, observer)
  | environmentPrepared (observer : Observer σ) (env : Environment) :
      Telling (Deed.ofAction (.notified .environmentPrepared observer.name) (observer.environmentPrepared env))
        (.environmentPrepared, observer)
  | contextPrepared (observer : Observer σ) (container : Container σ) :
      Telling (Deed.ofAction (.notified .contextPrepared observer.name) (observer.contextPrepared container))
        (.contextPrepared, observer)
  | contextLoaded (observer : Observer σ) (container : Container σ) :
      Telling (Deed.ofAction (.notified .contextLoaded observer.name) (observer.contextLoaded container))
        (.contextLoaded, observer)
  | finished (observer : Observer σ) (container : Option (Container σ)) (error : Option RunError) :
      Telling (Deed.ofAction (.notified (.finished error.isSome) observer.name) (observer.finished container error))
        (.finished error.isSome, observer)

/-- The notifications among some deeds give notices to observers, each to all of them in turn before the next one. -/
def Rounds (deeds : List (Deed σ)) (notices : List Notice) (observers : List (Observer σ)) : Prop :=
  List.Forall₂ Telling (Deed.ofKind Step.isNotification deeds) (notices.flatMap fun notice => observers.map (notice, ·))

namespace Rounds

variable {deeds more : List (Deed σ)} {notices others : List Notice} {observers : List (Observer σ)}

/-- Rounds of notifications behind others are the rounds of both. -/
theorem append (h : Rounds deeds notices observers) (hmore : Rounds more others observers) :
    Rounds (deeds ++ more) (notices ++ others) observers := by
  rw [Rounds, Deed.ofKind_append, List.flatMap_append]
  exact List.rel_append h hmore

/-- Deeds without a notification give no notice. -/
theorem none (h : ∀ step ∈ Deed.steps deeds, step.isNotification = false) : Rounds deeds [] observers := by
  rw [Rounds, Deed.ofKind_eq_nil h]
  exact .nil

/-- Telling observers of a notice is one round, if what is called is what observers do about the notice. -/
theorem told {notice : Notice} {act : Observer σ → Action σ (Except Failure Unit)} (observers : List (Observer σ))
    (h : ∀ observer, Telling (Deed.ofAction (.notified notice observer.name) (act observer)) (notice, observer)) :
    Rounds (Observer.told notice act observers) [notice] observers := by
  have hnotified : ∀ step ∈ Deed.steps (Observer.told notice act observers), step.isNotification = true := by
    rw [Observer.steps_told]
    intro step hmem
    obtain ⟨observer, -, rfl⟩ := List.mem_map.mp hmem
    rfl
  rw [Rounds, Deed.ofKind_eq_self hnotified, List.flatMap_singleton, Observer.told]
  exact List.forall₂_map_left_iff.mpr (List.forall₂_map_right_iff.mpr (List.forall₂_same.mpr fun observer _ => h observer))

end Rounds

/-- Observers are told of the environment in turn. -/
theorem Observer.rounds_adjust (observers : List (Observer σ)) (env : Environment) (state : σ) :
    ∃ deeds, Deed.steps deeds = round .environmentPrepared observers ∧ Deed.leave deeds state = (adjust observers env state).2 ∧
      Rounds deeds [.environmentPrepared] observers := by
  induction observers generalizing env state with
  | nil => exact ⟨[], rfl, rfl, .nil⟩
  | cons observer rest ih =>
    obtain ⟨deeds, hsteps, hleave, hrounds⟩ :=
      ih (observer.environmentPrepared env state).1.1 (observer.environmentPrepared env state).2.1
    refine ⟨Deed.ofAction (.notified .environmentPrepared observer.name) (observer.environmentPrepared env) :: deeds, ?_, hleave, ?_⟩
    · exact congrArg (_ :: ·) hsteps
    · exact List.Forall₂.cons (.environmentPrepared observer env) hrounds

/-! ## Demands in turn -/

namespace Demand

/-- The call of a demand as a deed. -/
def deed (demand : Demand σ) : Deed σ :=
  Deed.ofAction demand.step demand.action

/-- The calls of demands. -/
def deeds (demands : List (Demand σ)) : List (Deed σ) :=
  demands.map deed

variable {demands : List (Demand σ)} {state last : σ} {error : RunError} {steps : List Step}

/-- Demands as deeds keep the same steps. -/
@[simp] theorem steps_deeds (demands : List (Demand σ)) : Deed.steps (deeds demands) = Demand.steps demands :=
  List.map_map

/-- Demands that are met leave, as deeds, the state that they lead to. -/
theorem Met.leave (h : Met demands state last) : Deed.leave (deeds demands) state = last := by
  induction h with
  | nil => rfl
  | @cons demand rest state next last told haction _ ih =>
    change Deed.leave (deeds rest) (demand.action state).2.1 = last
    rw [haction]
    exact ih

/-- Demands are made in turn in a state: all of them if all are met, and otherwise those up to the first that is refused. Its failure
is what is left to deal with. -/
inductive Made (demands : List (Demand σ)) (state : σ) : List (Deed σ) → Option RunError → Prop where
  | all {last : σ} : Met demands state last → Made demands state (deeds demands) none
  | upTo (front : List (Demand σ)) {behind : List (Demand σ)} {demand : Demand σ} {before last : σ} {cause : Failure}
      {told : List LogRecord} :
      demands = front ++ demand :: behind → Met front state before → demand.action before = (.error cause, last, told) →
      Made demands state (deeds (front ++ [demand])) (some (RunError.because demand.fault cause))

/-- Where one of the demands is refused, those up to it are made. -/
theorem Refused.made (h : Refused demands state error steps last) :
    ∃ calls, Deed.steps calls = steps ∧ Deed.leave calls state = last ∧ Made demands state calls (some error) := by
  induction h with
  | @here demand rest state last failure told haction =>
    have hlast : Deed.leave [demand.deed] state = last := congrArg (·.2.1) haction
    exact ⟨[demand.deed], rfl, hlast, .upTo [] rfl (.nil state) haction⟩
  | @later demand rest state next last error steps told haction _ ih =>
    obtain ⟨calls, rfl, hlast, hmade⟩ := ih
    obtain _ | ⟨front, rfl, hmet, hrefused⟩ := hmade
    refine ⟨demand.deed :: _, rfl, ?_, .upTo (demand :: front) rfl (.cons haction hmet) hrefused⟩
    have hnext : (demand.action state).2.1 = next := congrArg (·.2.1) haction
    rw [← hlast, ← hnext]
    rfl

end Demand

/-! ## Stages in turn -/

/-- There is one notice at most in every phase. -/
theorem nodup_phases {between : List Notice} (h : between <+: [.environmentPrepared, .contextPrepared, .contextLoaded]) (failed : Bool) :
    (([Notice.starting] ++ between ++ [Notice.finished failed]).map Notice.phase).Nodup := by
  have hall : ([Notice.starting, .environmentPrepared, .contextPrepared, .contextLoaded, .finished failed].map Notice.phase).Nodup := by
    simp [Notice.phase]
  refine List.Sublist.nodup (List.Sublist.map _ ?_) hall
  exact (h.sublist.append_left _).append_right _

/-- Only when the container has been made are four stages left. -/
theorem Stage.eq_created_of_left {stage : Stage σ} (h : stage.left = 4) :
    ∃ arguments env container, stage = .created arguments env container := by
  cases stage with
  | created arguments env container => exact ⟨arguments, env, container, rfl⟩
  | _ => nomatch h

/-- Only when the container is active is one stage left. -/
theorem Stage.eq_activated_of_left {stage : Stage σ} (h : stage.left = 1) :
    ∃ arguments env container, stage = .activated arguments env container := by
  cases stage with
  | activated arguments env container => exact ⟨arguments, env, container, rfl⟩
  | _ => nomatch h

namespace Application

variable {app : Application σ} {args : List String} {start : σ} {stage : Stage σ} {has : Option (Container σ)}
variable {steps : List Step} {state : σ} {error : RunError} {deeds more : List (Deed σ)} {left : Nat} {step : Step}

/-- A demand is made at its stage. -/
theorem isMadeAt_of_mem (h : step ∈ Demand.steps (app.demands state stage)) : step.isMadeAt left = decide (stage.left = left) := by
  obtain ⟨demand, hmem, rfl⟩ := List.mem_map.mp h
  cases stage with
  | begun | configured | served => nomatch hmem
  | created =>
    obtain ⟨initializer, -, rfl⟩ := List.mem_map.mp hmem
    exact decide_eq_decide.mpr eq_comm
  | prepared =>
    simp only [demands, filling, List.mem_cons, List.not_mem_nil, or_false] at hmem
    obtain rfl | rfl | rfl := hmem <;> exact decide_eq_decide.mpr eq_comm
  | filled =>
    obtain rfl | hhook := List.mem_cons.mp hmem
    · exact decide_eq_decide.mpr eq_comm
    · split at hhook
      · obtain rfl := List.mem_singleton.mp hhook
        exact decide_eq_decide.mpr eq_comm
      · exact absurd hhook List.not_mem_nil
  | activated =>
    obtain ⟨runner, -, rfl⟩ := List.mem_map.mp hmem
    exact decide_eq_decide.mpr eq_comm

/-- The demands of a stage that have so many stages behind them are made in turn in a run that may break off with an error: they are the
calls, if the stage is reached, and otherwise there are none. -/
def InTurn (app : Application σ) (args : List String) (start : σ) (broken : Option RunError) (left : Nat) (calls : List (Deed σ)) :
    Prop :=
  ((∀ stage steps state, app.Reaches args start stage steps state → left < stage.left) ∧ calls = []) ∨
    ∃ stage steps state error?, app.Reaches args start stage steps state ∧ stage.left = left ∧
      Demand.Made (app.demands state stage) state calls error? ∧ ∀ error ∈ error?, broken = some error

/-- What a run did up to a stage, told by deeds: observers were told in turn of the notices of the stage, and the demands of all stages
ahead of it were made and met. -/
structure Course (app : Application σ) (args : List String) (start : σ) (stage : Stage σ) (steps : List Step) (state : σ)
    (deeds : List (Deed σ)) : Prop where
  /-- The steps are those of the deeds. -/
  steps_eq : Deed.steps deeds = steps
  /-- The state is the one that they leave. -/
  state_eq : Deed.leave deeds start = state
  /-- Observers were told in turn. -/
  rounds : Rounds deeds stage.notices app.inOrder
  /-- Nothing was demanded at this stage or behind it. -/
  ahead : ∀ left, left ≤ stage.left → Deed.ofKind (Step.isMadeAt left) deeds = []
  /-- Whatever was demanded ahead of it was met. -/
  behind : ∀ left, stage.left < left → left ≤ 4 →
    ∃ stage' steps' state' last', app.Reaches args start stage' steps' state' ∧ stage'.left = left ∧
      Demand.Met (app.demands state' stage') state' last' ∧
      Deed.ofKind (Step.isMadeAt left) deeds = Demand.deeds (app.demands state' stage')

/-- Steps by which phases are entered, as deeds. -/
def entries (steps : List Step) : List (Deed σ) :=
  steps.map fun step => ⟨step, id⟩

/-- Steps as deeds are these steps. -/
theorem steps_entries (steps : List Step) : Deed.steps (entries steps : List (Deed σ)) = steps := by
  rw [entries, Deed.steps, List.map_map]
  exact List.map_id steps

/-- Steps as deeds leave the state as it is. -/
theorem leave_entries (steps : List Step) (state : σ) : Deed.leave (entries steps) state = state := by
  induction steps with
  | nil => rfl
  | cons _ _ ih => exact ih

/-- The entry into a phase is no step that a stage makes. -/
theorem ofKind_entered (phase : Phase) : Deed.ofKind (Step.isMadeAt left) (entries [.entered phase] : List (Deed σ)) = [] :=
  rfl

/-- Nor does it notify anybody. -/
theorem rounds_entered (phase : Phase) (observers : List (Observer σ)) : Rounds (entries [.entered phase]) [] observers :=
  .nil

/-- No notification is a step that a stage makes. -/
theorem isMadeAt_round {notice : Notice} {observers : List (Observer σ)} :
    ∀ step ∈ Observer.round notice observers, step.isMadeAt left = false := by
  intro step hmem
  obtain ⟨observer, -, rfl⟩ := List.mem_map.mp hmem
  rfl

/-- So none of the deeds by which observers are told is of such a kind. -/
theorem ofKind_told {notice : Notice} {act : Observer σ → Action σ (Except Failure Unit)} (observers : List (Observer σ)) :
    Deed.ofKind (Step.isMadeAt left) (Observer.told notice act observers) = [] := by
  refine Deed.ofKind_eq_nil ?_
  rw [Observer.steps_told]
  exact isMadeAt_round

/-- The demands of a stage are of the kind of this stage, and of no other kind. -/
theorem ofKind_demands (app : Application σ) (state : σ) (stage : Stage σ) (left : Nat) :
    Deed.ofKind (Step.isMadeAt left) (Demand.deeds (app.demands state stage)) =
      if stage.left = left then Demand.deeds (app.demands state stage) else [] := by
  split
  case isTrue hleft =>
    refine Deed.ofKind_eq_self fun step hmem => ?_
    rw [Demand.steps_deeds] at hmem
    rw [isMadeAt_of_mem hmem, decide_eq_true hleft]
  case isFalse hleft =>
    refine Deed.ofKind_eq_nil fun step hmem => ?_
    rw [Demand.steps_deeds] at hmem
    rw [isMadeAt_of_mem hmem, decide_eq_false hleft]

/-- Nor is the entry into a stage. -/
theorem ofKind_entry (stage : Stage σ) (left : Nat) : Deed.ofKind (Step.isMadeAt left) (entries stage.entry : List (Deed σ)) = [] := by
  refine Deed.ofKind_eq_nil ?_
  cases stage <;> simp [steps_entries, Stage.entry, Step.isMadeAt]

/-- The entry into a stage notifies nobody. -/
theorem rounds_entry (stage : Stage σ) (observers : List (Observer σ)) : Rounds (entries stage.entry) [] observers := by
  refine .none ?_
  cases stage <;> simp [steps_entries, Stage.entry, Step.isNotification]

/-- Nor are the deeds by which observers are told of a stage. -/
theorem ofKind_told_stage (app : Application σ) (stage : Stage σ) (left : Nat) :
    Deed.ofKind (Step.isMadeAt left) (app.told stage) = [] := by
  cases stage with
  | created | prepared => exact ofKind_told _
  | _ => rfl

/-- What observers are told once the demands of a stage are met are the notices that the next stage has more. -/
theorem rounds_told_stage {next : Stage σ} (app : Application σ) (hnext : stage.next? = some next) :
    ∃ notices, next.notices = stage.notices ++ notices ∧ Rounds (app.told stage) notices app.inOrder := by
  cases stage with
  | begun | configured | served => nomatch hnext
  | created =>
    obtain rfl := Option.some.inj hnext
    exact ⟨[.contextPrepared], rfl, .told _ fun observer => .contextPrepared observer _⟩
  | prepared =>
    obtain rfl := Option.some.inj hnext
    exact ⟨[.contextLoaded], rfl, .told _ fun observer => .contextLoaded observer _⟩
  | filled | activated =>
    obtain rfl := Option.some.inj hnext
    exact ⟨[], rfl, .none nofun⟩

/-- No stage makes the container. -/
theorem ofKind_making (app : Application σ) (env : Environment) :
    Deed.ofKind (Step.isMadeAt left) (entries [.entered .contextPrepared] ++ [Deed.ofAction .created (app.factory env)]) = [] :=
  rfl

/-- Nobody is notified by making it. -/
theorem rounds_making (app : Application σ) (env : Environment) (observers : List (Observer σ)) :
    Rounds (entries [.entered .contextPrepared] ++ [Deed.ofAction .created (app.factory env)]) [] observers :=
  .nil

/-- The demands of a stage notify nobody. -/
theorem rounds_demands (h : ∀ step ∈ Deed.steps deeds, step ∈ Demand.steps (app.demands state stage)) :
    Rounds deeds [] app.inOrder :=
  .none fun step hmem => by
    have hdemand := isDemand_of_mem app state stage step (h step hmem)
    cases step <;> first | rfl | nomatch hdemand

/-- More is done, by which observers are told of more notices, up to a stage behind which everything demanded was met. -/
theorem Course.extend (h : app.Course args start stage steps state deeds) (next : Stage σ) (notices : List Notice)
    (more : List (Deed σ)) (hle : next.left ≤ stage.left) (hnotices : next.notices = stage.notices ++ notices)
    (hrounds : Rounds more notices app.inOrder)
    (hahead : ∀ left, left ≤ next.left → Deed.ofKind (Step.isMadeAt left) more = [])
    (hbehind : ∀ left, next.left < left → left ≤ 4 →
      ∃ stage' steps' state' last', app.Reaches args start stage' steps' state' ∧ stage'.left = left ∧
        Demand.Met (app.demands state' stage') state' last' ∧
        Deed.ofKind (Step.isMadeAt left) (deeds ++ more) = Demand.deeds (app.demands state' stage')) :
    app.Course args start next (steps ++ Deed.steps more) (Deed.leave more state) (deeds ++ more) where
  steps_eq := by rw [Deed.steps_append, h.steps_eq]
  state_eq := by rw [Deed.leave_append, h.state_eq]
  rounds := hnotices ▸ h.rounds.append hrounds
  ahead left hleft := by rw [Deed.ofKind_append, h.ahead left (Nat.le_trans hleft hle), hahead left hleft, List.append_nil]
  behind := hbehind

/-- What was done up to a stage has a course. -/
theorem Reaches.course (h : app.Reaches args start stage steps state) : ∃ deeds, app.Course args start stage steps state deeds := by
  induction h with
  | begun =>
    refine ⟨entries [.entered .starting] ++ Observer.told .starting (·.starting args app.sources) app.inOrder, ?_, ?_, ?_, ?_, ?_⟩
    · rw [Deed.steps_append, steps_entries, Observer.steps_told]
    · rw [Deed.leave_append, leave_entries]
      rfl
    · exact (rounds_entered ..).append (.told _ fun observer => .starting observer ..)
    · intro left _
      rw [Deed.ofKind_append, ofKind_told, List.append_nil, ofKind_entered]
    · intro left hlt hle
      exact absurd (Nat.lt_of_lt_of_le hlt hle) (by simp)
  | @configured arguments found env steps state last h hconfiguration hadjust ih =>
    obtain ⟨deeds, hcourse⟩ := ih
    obtain ⟨adjusting, hsteps, hleave, hrounds⟩ := Observer.rounds_adjust app.inOrder found state
    refine ⟨deeds ++ (entries [.entered .environmentPrepared] ++ adjusting), ?_⟩
    have hextended := hcourse.extend (.configured arguments env) [.environmentPrepared]
      (entries [.entered .environmentPrepared] ++ adjusting) (by simp) rfl
      ((rounds_entered ..).append hrounds) (fun left _ => ?_) (fun left hlt hle => absurd (Nat.lt_of_lt_of_le hlt hle) (by simp))
    · rwa [Deed.steps_append, steps_entries, hsteps, Deed.leave_append, leave_entries, hleave, hadjust, ← List.append_assoc]
        at hextended
    · rw [Deed.ofKind_append, ofKind_entered, List.nil_append]
      exact Deed.ofKind_eq_nil (hsteps ▸ isMadeAt_round)
  | @created arguments env container steps state last told h hfactory ih =>
    obtain ⟨deeds, hcourse⟩ := ih
    refine ⟨deeds ++ (entries [.entered .contextPrepared] ++ [Deed.ofAction .created (app.factory env)]), ?_⟩
    have hextended := hcourse.extend (.created arguments env container) []
      (entries [.entered .contextPrepared] ++ [Deed.ofAction .created (app.factory env)]) (by simp) rfl (rounds_making ..)
      (fun left _ => ofKind_making ..) (fun left hlt hle => absurd (Nat.lt_of_lt_of_le hlt hle) (by simp))
    have hlast : Deed.leave [Deed.ofAction .created (app.factory env)] state = last := congrArg (·.2.1) hfactory
    rw [Deed.steps_append, steps_entries, Deed.leave_append, leave_entries, hlast, ← List.append_assoc] at hextended
    exact hextended
  | @next stage next steps state last h hnext hmet ih =>
    obtain ⟨deeds, hcourse⟩ := ih
    obtain ⟨notices, hnotices, htold⟩ := app.rounds_told_stage hnext
    have hleft := Stage.left_of_next hnext
    have hkind (left : Nat) : Deed.ofKind (Step.isMadeAt left)
        (entries stage.entry ++ (Demand.deeds (app.demands state stage) ++ app.told stage)) =
          if stage.left = left then Demand.deeds (app.demands state stage) else [] := by
      rw [Deed.ofKind_append, Deed.ofKind_append, ofKind_entry, ofKind_demands, ofKind_told_stage, List.nil_append, List.append_nil]
    have hrounds : Rounds (entries stage.entry ++ (Demand.deeds (app.demands state stage) ++ app.told stage)) notices app.inOrder :=
      (rounds_entry stage _).append (Rounds.append (rounds_demands fun step hmem => Demand.steps_deeds _ ▸ hmem) htold)
    have hextended := hcourse.extend next notices _ (by omega) hnotices hrounds
      (fun left hle => (hkind left).trans (if_neg (by omega))) (fun left hlt hle => ?_)
    · rw [Deed.steps_append, Deed.steps_append, steps_entries, Demand.steps_deeds, Deed.leave_append, Deed.leave_append, leave_entries,
        hmet.leave, ← List.append_assoc, ← List.append_assoc] at hextended
      exact ⟨_, hextended⟩
    · rw [Deed.ofKind_append, hkind left]
      by_cases heq : stage.left = left
      · refine ⟨stage, steps, state, last, h, heq, hmet, ?_⟩
        rw [if_pos heq, hcourse.ahead left (Nat.le_of_eq heq.symm), List.nil_append]
      · obtain ⟨stage', steps', state', last', hreached, hstage, hmet', hcalls⟩ := hcourse.behind left (by omega) hle
        exact ⟨stage', steps', state', last', hreached, hstage, hmet', by rw [if_neg heq, hcalls, List.append_nil]⟩

/-! ## Runs that break off, and what is done about it -/

/-- Apart from the last stage that a run reached, what was demanded at a stage was demanded in turn. -/
theorem Course.inTurn (h : app.Course args start stage steps state deeds) (hlast : app.IsLast args start stage)
    (broken : Option RunError) (hne : left ≠ stage.left) (hle : left ≤ 4) :
    app.InTurn args start broken left (Deed.ofKind (Step.isMadeAt left) deeds) := by
  rcases Nat.lt_or_gt_of_ne hne with hahead | hbehind
  · exact .inl ⟨fun stage' _ _ h' => Nat.lt_of_lt_of_le hahead (hlast stage' _ _ h'), h.ahead left (Nat.le_of_lt hahead)⟩
  · obtain ⟨stage', steps', state', last', hreached, hleft, hmet, hcalls⟩ := h.behind left hbehind hle
    exact .inr ⟨stage', steps', state', none, hreached, hleft, hcalls ▸ .all hmet, nofun⟩

/-- A run that finishes tells each observer so, in order. -/
theorem rounds_toldFinished (app : Application σ) (container : Container σ) :
    Rounds (app.toldFinished container) [.finished false] app.inOrder :=
  .told _ fun observer => .finished observer (some container) none

/-- The end of a run that succeeded makes no step of a stage. -/
theorem ofKind_finishing (app : Application σ) (container : Container σ) :
    Deed.ofKind (Step.isMadeAt left) (entries [.entered .finished] ++ app.toldFinished container) = [] := by
  rw [Deed.ofKind_append, toldFinished, ofKind_told, List.append_nil, ofKind_entered]

/-- What a run did that breaks off with an error, told by deeds: observers were told in turn of the notices of its last stage, and that
the run is over if this is when it failed; and what was demanded was demanded in turn. -/
structure BrokenCourse (app : Application σ) (args : List String) (start : σ) (error : RunError) (steps : List Step) (state : σ)
    (last : Stage σ) (deeds : List (Deed σ)) : Prop where
  /-- The stage is reached. -/
  reaches : ∃ before place, app.Reaches args start last before place
  /-- No other stage is reached behind it. -/
  isLast : app.IsLast args start last
  /-- The run fails at its end if no stage is left. -/
  finished : error.phase? = some .finished ↔ last.left = 0
  /-- The steps are those of the deeds. -/
  steps_eq : Deed.steps deeds = steps
  /-- The state is the one that they leave. -/
  state_eq : Deed.leave deeds start = state
  /-- Observers were told in turn. -/
  rounds : Rounds deeds (last.notices ++ if error.phase? = some .finished then [.finished false] else []) app.inOrder
  /-- What was demanded was demanded in turn. -/
  turns : ∀ left, 0 < left → left ≤ 4 → app.InTurn args start (some error) left (Deed.ofKind (Step.isMadeAt left) deeds)

/-- A run that does more behind its last stage and breaks off there has a course up to its end, if what is demanded at this stage is
demanded in turn and nothing else is demanded any more. -/
theorem Course.breakOff {before : List Step} {place : σ} (h : app.Course args start stage before place deeds) (more : List (Deed σ))
    (hreaches : app.Reaches args start stage before place) (hlast : app.IsLast args start stage)
    (hfinished : error.phase? = some .finished ↔ stage.left = 0) (hsteps : before ++ Deed.steps more = steps)
    (hleave : Deed.leave more place = state)
    (hrounds : Rounds more (if error.phase? = some .finished then [.finished false] else []) app.inOrder)
    (hturn : 0 < stage.left → stage.left ≤ 4 →
      app.InTurn args start (some error) stage.left (Deed.ofKind (Step.isMadeAt stage.left) more))
    (hother : ∀ left, stage.left ≠ left → Deed.ofKind (Step.isMadeAt left) more = []) :
    app.BrokenCourse args start error steps state stage (deeds ++ more) where
  reaches := ⟨before, place, hreaches⟩
  isLast := hlast
  finished := hfinished
  steps_eq := by rw [Deed.steps_append, h.steps_eq, hsteps]
  state_eq := by rw [Deed.leave_append, h.state_eq, hleave]
  rounds := h.rounds.append hrounds
  turns left hpos hle := by
    rw [Deed.ofKind_append]
    by_cases heq : stage.left = left
    · subst heq
      rw [h.ahead stage.left (Nat.le_refl _), List.nil_append]
      exact hturn hpos hle
    · rw [hother left heq, List.append_nil]
      exact h.inTurn hlast (some error) (Ne.symm heq) hle

/-- What a run did that breaks off has a course, up to its last stage and from there on. -/
theorem BreaksOff.course (h : app.BreaksOff args start error has steps state) :
    ∃ last deeds, app.BrokenCourse args start error steps state last deeds := by
  cases h with
  | @configuring fault before _ hreaches hconfiguration =>
    obtain ⟨deeds, hcourse⟩ := hreaches.course
    have hunfinished := unfinished_of_environment fault.failure
    refine ⟨.begun, _, hcourse.breakOff (entries [.entered .environmentPrepared]) hreaches
      (hreaches.isLast_of_fault hconfiguration) (iff_of_false hunfinished (Nat.succ_ne_zero _)) (by rw [steps_entries])
      (leave_entries ..) ?_ (fun _ hle => nomatch hle) fun _ _ => ofKind_entered _⟩
    rw [if_neg hunfinished]
    exact rounds_entered ..
  | @creating arguments env failure before place last told hreaches hfactory =>
    obtain ⟨deeds, hcourse⟩ := hreaches.course
    have hunfinished := unfinished_of_container failure
    refine ⟨.configured arguments env, _, hcourse.breakOff
      (entries [.entered .contextPrepared] ++ [Deed.ofAction .created (app.factory env)]) hreaches
      (hreaches.isLast_of_unmade hfactory) (iff_of_false hunfinished (Nat.succ_ne_zero _)) ?_ ?_ ?_ (fun _ hle => nomatch hle)
      fun _ _ => ofKind_making ..⟩
    · rw [Deed.steps_append, steps_entries, ← List.append_assoc]
      rfl
    · rw [Deed.leave_append, leave_entries]
      exact congrArg (·.2.1) hfactory
    · rw [if_neg hunfinished]
      exact rounds_making ..
  | @refused stage _ before more place _ hreaches hrefused =>
    obtain ⟨deeds, hcourse⟩ := hreaches.course
    obtain ⟨calls, hsteps, hleave, hmade⟩ := hrefused.made
    have hmem : ∀ step ∈ Deed.steps calls, step ∈ Demand.steps (app.demands place stage) :=
      fun step hstep => hrefused.isPrefix.subset (hsteps ▸ hstep)
    obtain ⟨hunfinished, hbehind⟩ := unfinished_of_refused hrefused
    refine ⟨stage, _, hcourse.breakOff (entries stage.entry ++ calls) hreaches (hreaches.isLast_of_refused hrefused)
      (iff_of_false hunfinished hbehind) ?_ ?_ ?_ (fun _ _ => ?_) fun left hne => ?_⟩
    · rw [Deed.steps_append, steps_entries, hsteps, ← List.append_assoc]
    · rw [Deed.leave_append, leave_entries, hleave]
    · rw [if_neg hunfinished]
      exact (rounds_entry stage _).append (rounds_demands hmem)
    · rw [Deed.ofKind_append, ofKind_entry, List.nil_append,
        Deed.ofKind_eq_self fun step hstep => (isMadeAt_of_mem (hmem step hstep)).trans (decide_eq_true rfl)]
      exact .inr ⟨stage, before, place, some error, hreaches, rfl, hmade, fun other hother => hother.symm ▸ rfl⟩
    · rw [Deed.ofKind_append, ofKind_entry, List.nil_append]
      exact Deed.ofKind_eq_nil fun step hstep => (isMadeAt_of_mem (hmem step hstep)).trans (decide_eq_false hne)
  | @finishing arguments env container _ before place hreaches hpromoted =>
    obtain ⟨deeds, hcourse⟩ := hreaches.course
    have hfinished := Observer.phase_of_promoted hpromoted
    refine ⟨.served arguments env container, _, hcourse.breakOff
      (entries [.entered .finished] ++ app.toldFinished container) hreaches (fun _ _ _ _ => Nat.zero_le _)
      (iff_of_true hfinished rfl) ?_ ?_ ?_ (fun hpos => nomatch hpos) fun _ _ => ofKind_finishing ..⟩
    · rw [Deed.steps_append, steps_entries, ← List.append_assoc]
    · rw [Deed.leave_append, leave_entries]
    · rw [if_pos hfinished]
      exact (rounds_entered ..).append (rounds_toldFinished app _)

/-- What belongs to the end of a run that failed is no notification and no demand. -/
theorem silent_of_isEnding (h : step.isEnding = true) : step.isNotification = false ∧ ∀ left, step.isMadeAt left = false := by
  cases step <;> first | exact ⟨rfl, fun _ => rfl⟩ | nomatch h

/-- Publishing an exit code belongs to the ending of a run. -/
theorem isEnding_publication (has : Option (Container σ)) (code : Int) (state : σ) :
    ∀ step ∈ Deed.steps (publication has code state), step.isEnding = true := by
  intro step hmem
  cases has with
  | none => exact absurd hmem List.not_mem_nil
  | some container =>
    rw [publication] at hmem
    split at hmem
    · rw [List.mem_singleton.mp hmem]
      rfl
    · exact absurd hmem List.not_mem_nil

/-- So does reporting an error and closing the container. -/
theorem isEnding_reporting_closing (app : Application σ) (error : RunError) (has : Option (Container σ)) :
    ∀ step ∈ Deed.steps ([app.reporting error] ++ closing has), step.isEnding = true := by
  intro step hmem
  cases has <;> simp [closing, Deed.steps, reporting, Deed.ofAction] at hmem
  · exact hmem ▸ rfl
  · rcases hmem with rfl | rfl <;> rfl

/-- Observers are told that a run is over that failed, unless they know, and nothing is demanded by that. -/
theorem rounds_farewell (app : Application σ) (error : RunError) (notified : Bool) (has : Option (Container σ)) :
    Rounds (app.farewell error notified has) (if notified then [] else [.finished true]) app.inOrder ∧
      ∀ left, Deed.ofKind (Step.isMadeAt left) (app.farewell error notified has) = [] := by
  cases notified with
  | true => exact ⟨.nil, fun _ => rfl⟩
  | false =>
    refine ⟨(rounds_entered ..).append (.told _ fun observer => .finished observer has (some error)), fun left => ?_⟩
    change Deed.ofKind _ (Observer.told (.finished true) (·.finished has (some error)) app.inOrder) = []
    exact ofKind_told _

/-- After a failure observers are told that the run is over, unless they know, and nothing is demanded any more. -/
theorem rounds_aftermath (app : Application σ) (error : RunError) (notified : Bool) (has : Option (Container σ)) (state : σ) :
    Rounds (app.aftermath error notified has state) (if notified then [] else [.finished true]) app.inOrder ∧
      ∀ left, Deed.ofKind (Step.isMadeAt left) (app.aftermath error notified has state) = [] := by
  have hpublication := isEnding_publication has (failureCode has error state) state
  have hlast := isEnding_reporting_closing app error has
  obtain ⟨hfarewell, hnothing⟩ := app.rounds_farewell error notified has
  rw [aftermath, List.append_assoc]
  constructor
  · have hrounds := ((Rounds.none fun step hmem => (silent_of_isEnding (hpublication step hmem)).1).append hfarewell).append
      (.none fun step hmem => (silent_of_isEnding (hlast step hmem)).1)
    rwa [List.nil_append, List.append_nil] at hrounds
  · intro left
    rw [Deed.ofKind_append, Deed.ofKind_append, hnothing,
      Deed.ofKind_eq_nil fun step hmem => (silent_of_isEnding (hpublication step hmem)).2 left,
      Deed.ofKind_eq_nil fun step hmem => (silent_of_isEnding (hlast step hmem)).2 left]
    rfl

/-! ## Whole runs -/

/-- What a run did, told by deeds. If it broke off with an error, this is the error that it failed with. -/
theorem deeds_of_run (app : Application σ) (args : List String) (world : World σ) :
    ∃ (deeds : List (Deed σ)) (between : List Notice) (failed : Bool) (broken : Option RunError),
      (app.run args world).2.steps = world.steps ++ Deed.steps deeds ∧
      (app.run args world).2.state = Deed.leave deeds world.state ∧
      app.Announces args world between failed ∧
      Rounds deeds ([.starting] ++ between ++ [.finished failed]) app.inOrder ∧
      (∀ error ∈ broken, ∃ failure, (app.run args world).1 = .error failure ∧ failure.error = error) ∧
      ∀ left, 0 < left → left ≤ 4 → app.InTurn args world.state broken left (Deed.ofKind (Step.isMadeAt left) deeds) := by
  rcases app.breaksOff_or_succeeds args world.state with
    ⟨error, has, before, state, hbreak⟩ | ⟨arguments, env, container, before, state, hserved, hpromoted⟩
  · obtain ⟨failure, after, hrun, hdealt⟩ := hbreak.dealtWith
    obtain ⟨last, deeds, hcourse⟩ := hbreak.course
    obtain ⟨_, _, hreaches⟩ := hcourse.reaches
    obtain ⟨hnotified, hnothing⟩ := app.rounds_aftermath error (error.phase? = some .finished) has state
    obtain ⟨between, heq, hgiven⟩ := hreaches.announces hcourse.isLast
      (show decide (error.phase? ≠ some .finished) = true ↔ _ by simp [hrun, hcourse.finished])
    refine ⟨deeds ++ app.aftermath error (error.phase? = some .finished) has state, between, decide (error.phase? ≠ some .finished),
      some error, ?_, ?_, hgiven, ?_, fun other hother => ⟨failure, by rw [hrun], ?_⟩, fun left hpos hle => ?_⟩
    · rw [hrun, hdealt.steps_eq, Deed.steps_append, hcourse.steps_eq, List.append_assoc]
    · rw [hrun, hdealt.state_eq, Deed.leave_append, hcourse.state_eq]
    · have hboth := hcourse.rounds.append hnotified
      rw [heq] at hboth
      by_cases hphase : error.phase? = some .finished <;> simpa [hphase] using hboth
    · rw [hdealt.failure_eq]
      exact Option.some.inj hother
    · rw [Deed.ofKind_append, hnothing left, List.append_nil]
      exact hcourse.turns left hpos hle
  · obtain ⟨after, hrun, hleads⟩ := hserved.run hpromoted
    obtain ⟨deeds, hcourse⟩ := hserved.course
    obtain ⟨between, heq, hgiven⟩ := hserved.announces (fun _ _ _ _ => Nat.zero_le _) (show false = true ↔ _ by simp)
    refine ⟨deeds ++ (entries [.entered .finished] ++ app.toldFinished container), between, false, none,
      ?_, ?_, hgiven, ?_, nofun, fun left hpos hle => ?_⟩
    · rw [hrun, hleads.steps_eq, Deed.steps_append, Deed.steps_append, steps_entries, hcourse.steps_eq, List.append_assoc]
    · rw [hrun, hleads.state_eq, Deed.leave_append, Deed.leave_append, leave_entries, hcourse.state_eq]
    · have hrounds := hcourse.rounds
      rw [heq] at hrounds
      exact hrounds.append ((rounds_entered ..).append (rounds_toldFinished app _))
    · rw [Deed.ofKind_append, ofKind_finishing, List.append_nil]
      exact hcourse.inTurn (fun _ _ _ _ => Nat.zero_le _) none (Nat.ne_of_gt hpos) hle

/-- The calls of a run are demands that are made in turn once a stage is reached, up to the first that is refused, with whose failure
the run fails; there are none if the stage is not reached. -/
def CalledInTurn (app : Application σ) (args : List String) (world : World σ)
    (stage : Arguments → Environment → Container σ → Stage σ) (demanded : Arguments → Container σ → σ → List (Demand σ))
    (calls : List (Deed σ)) : Prop :=
  ((∀ arguments env container steps state, ¬ app.Reaches args world.state (stage arguments env container) steps state) ∧ calls = []) ∨
    ∃ arguments env container steps state error?,
      app.Reaches args world.state (stage arguments env container) steps state ∧
      Demand.Made (demanded arguments container state) state calls error? ∧
      ∀ error ∈ error?, ∃ failure, (app.run args world).1 = .error failure ∧ failure.error = error

/-- What is demanded in turn at the only stage that has so many behind it is called in turn. -/
theorem InTurn.called {world : World σ} {broken : Option RunError} {calls : List (Deed σ)}
    {stage : Arguments → Environment → Container σ → Stage σ} {demanded : Arguments → Container σ → σ → List (Demand σ)}
    (h : app.InTurn args world.state broken left calls)
    (hbroken : ∀ error ∈ broken, ∃ failure, (app.run args world).1 = .error failure ∧ failure.error = error)
    (hleft : ∀ arguments env container, (stage arguments env container).left = left)
    (honly : ∀ other : Stage σ, other.left = left → ∃ arguments env container, other = stage arguments env container)
    (hdemanded : ∀ arguments env container state, app.demands state (stage arguments env container) = demanded arguments container state) :
    app.CalledInTurn args world stage demanded calls := by
  rcases h with ⟨hnot, hnone⟩ | ⟨other, steps, state, error?, hreached, hother, hmade, herror⟩
  · refine .inl ⟨fun arguments env container steps state hreached => ?_, hnone⟩
    exact absurd (hnot _ _ _ hreached) (Nat.not_lt.mpr (Nat.le_of_eq (hleft arguments env container)))
  · obtain ⟨arguments, env, container, rfl⟩ := honly other hother
    rw [hdemanded] at hmade
    exact .inr ⟨arguments, env, container, steps, state, error?, hreached, hmade, fun error hmem => hbroken error (herror error hmem)⟩

/-- An application is given observers and initializers in any order. The initializers stand in the order of their priorities, as if they
had been sorted once. Every notice of a run goes to all observers that were given, in this order and whatever they answer: first that the
run begins, then how far it comes, and last that it is over; there is one notice at most in every phase. Once the container is made,
initializers are called in this order, and once it is active, so are its runners: all of them if none fails, and otherwise those up to the
first that fails, with whose failure the run fails. -/
theorem order_of_run (base : Application σ) (registrations : List (Registration σ)) (args : List String) (world : World σ) :
    let app := base.registered registrations
    (app.initializers = byPriority (·.priority) (registrations.filterMap Registration.initializer?) ∧
      InPriorityOrder (·.priority) (registrations.filterMap Registration.initializer?) app.initializers) ∧
    (∀ runners : List (Runner σ), InPriorityOrder (·.priority) runners (byPriority (·.priority) runners)) ∧
    ∃ deeds between failed observers,
      (app.run args world).2.steps = world.steps ++ Deed.steps deeds ∧
      (app.run args world).2.state = Deed.leave deeds world.state ∧
      InPriorityOrder (·.priority) (registrations.filterMap Registration.observer?) observers ∧
      Rounds deeds ([.starting] ++ between ++ [.finished failed]) observers ∧
      app.Announces args world between failed ∧
      (([Notice.starting] ++ between ++ [Notice.finished failed]).map Notice.phase).Nodup ∧
      app.CalledInTurn args world .created (fun _ container _ => preparation container app.initializers)
        (Deed.ofKind Step.isInitialization deeds) ∧
      app.CalledInTurn args world .activated
        (fun arguments container state => service arguments (byPriority (·.priority) (container.runners state)))
        (Deed.ofKind Step.isInvocation deeds) := by
  intro app
  have happ : app = _ := base.registered_eq registrations
  have hinitializers : app.initializers = byPriority (·.priority) (registrations.filterMap Registration.initializer?) := by rw [happ]
  have hobservers : app.inOrder = byPriority (·.priority) (registrations.filterMap Registration.observer?) := by rw [happ]; rfl
  obtain ⟨deeds, between, failed, broken, hsteps, hstate, hgiven, hrounds, hbroken, hturns⟩ := app.deeds_of_run args world
  refine ⟨⟨hinitializers, hinitializers ▸ inPriorityOrder_byPriority ..⟩, inPriorityOrder_byPriority _, deeds,
    between, failed, app.inOrder, hsteps, hstate, hobservers ▸ inPriorityOrder_byPriority .., hrounds, hgiven,
    nodup_phases hgiven.order failed, ?_, ?_⟩
  · rw [← Step.isMadeAt_four]
    exact (hturns 4 (by decide) (by decide)).called hbroken (fun _ _ _ => rfl) (fun _ => Stage.eq_created_of_left) fun _ _ _ _ => rfl
  · rw [← Step.isMadeAt_one]
    exact (hturns 1 (by decide) (by decide)).called hbroken (fun _ _ _ => rfl) (fun _ => Stage.eq_activated_of_left) fun _ _ _ _ => rfl

end Application

end Ignition
