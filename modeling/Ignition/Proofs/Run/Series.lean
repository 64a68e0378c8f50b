import Ignition.Proofs.Run.Status

/-!
# Runs one after the other

Runs of any applications may share one last resort, which deals with the failure of each run before the next one begins. Dealing with a
failure clears the failures that the last resort knows but not its exit code, and a failure without a code leaves that code alone. So a
failure is answered with the code of the last failure that had one, be it another one (`Launch.answer_of_startAll`).
-/

namespace Ignition

variable {σ : Type}

/-- Dealing with a failure leaves the exit code as it is. -/
theorem Running.exitCode_handle (failure : RunFailure) (world : World σ) :
    ((Running.handle failure).run world).2.suppressor.exitCode = world.suppressor.exitCode := by
  have htold := Running.run_forM_tell (world.suppressor.handle (.run failure)).log
    { world with suppressor := (world.suppressor.handle (.run failure)).suppressor }
  exact congrArg (·.2.suppressor.exitCode) htold

/-- The last of some exit codes that is one. -/
def lastCode (codes : List Int) : Option Int :=
  (codes.filter (· ≠ 0)).getLast?

theorem lastCode_singleton (code : Int) : lastCode [code] = if code = 0 then none else some code := by
  by_cases hcode : code = 0 <;> simp [lastCode, hcode]

/-- One more code counts if it is not zero. -/
theorem lastCode_concat (codes : List Int) (code : Int) :
    lastCode (codes ++ [code]) = if code ≠ 0 then some code else lastCode codes := by
  by_cases hcode : code = 0 <;> simp [lastCode, hcode]

/-- A code takes the place of the one before it, unless it is zero. -/
theorem lastCode_cons_cons (known code : Int) (codes : List Int) :
    lastCode (known :: code :: codes) = lastCode ((if code ≠ 0 then code else known) :: codes) := by
  by_cases hcode : code = 0
  · simp [lastCode, hcode]
  · by_cases hknown : known = 0 <;> simp [lastCode, hcode, hknown, List.getLast?_cons_cons]

/-- Codes that are all zero leave none. -/
theorem lastCode_eq_none_iff {codes : List Int} : lastCode codes = none ↔ ∀ code ∈ codes, code = 0 := by
  simp [lastCode]

/-- A run of an application that tells the last resort of its failures. -/
structure Launch (σ : Type) where
  /-- What is done before. -/
  before : Action σ Unit := .answer ()
  /-- The application. -/
  app : Application σ
  /-- The arguments. -/
  args : List String
  /-- The last resort is told. -/
  shares : app.usesSuppressor = true := by rfl

namespace Launch

/-- Runs the application. If it fails, the last resort deals with the failure; this is the answer. -/
def start (launch : Launch σ) : Running σ (Option (RunFailure × Option Int)) := do
  Running.call launch.before
  match ← launch.app.run launch.args with
  | .ok _ => return none
  | .error failure => return some (failure, ← Running.handle failure)

/-- Runs applications one after the other. The answers are the failures, each with what the last resort answered. -/
def startAll : List (Launch σ) → Running σ (List (RunFailure × Option Int))
  | [] => return []
  | launch :: rest => do
    let handled ← launch.start
    return handled.toList ++ (← startAll rest)

/-- What the last resort knows after a run: the exit code of the failure if it has one, and what it knew before otherwise. It answers
with what it knows then. -/
theorem start_cases (launch : Launch σ) (world : World σ) :
    ((launch.start.run world).1 = none ∧ (launch.start.run world).2.suppressor.exitCode = world.suppressor.exitCode) ∨
      ∃ failure code, (launch.start.run world).1 = some (failure, if code = 0 then none else some code) ∧
        (launch.start.run world).2.suppressor.exitCode = code ∧
        code = if failure.exitCode ≠ 0 then failure.exitCode else world.suppressor.exitCode := by
  rw [start, Running.run_bind, Running.run_bind]
  generalize hready : ((Running.call launch.before).run world).2 = ready
  have hsame : ready.suppressor = world.suppressor := by
    rw [← hready]
    rfl
  have hafter := launch.app.suppressor_of_run launch.args ready
  generalize hended : launch.app.run launch.args ready = ended at hafter
  rw [show (launch.app.run launch.args).run ready = ended from hended]
  rcases ended with ⟨failure | container, after⟩
  · obtain ⟨hsuppressor, -⟩ := hafter
    have hcode := launch.app.exitCode_remembered failure ready.suppressor
    rw [← hsuppressor, hsame] at hcode
    simp only [launch.shares, true_and] at hcode
    exact .inr ⟨failure, _, rfl, Running.exitCode_handle failure after, hcode⟩
  · exact .inl ⟨rfl, by rw [← hsame, ← show after.suppressor = _ from hafter]; rfl⟩

theorem startAll_cons (launch : Launch σ) (rest : List (Launch σ)) (world : World σ) :
    ((startAll (launch :: rest)).run world).1 =
      (launch.start.run world).1.toList ++ ((startAll rest).run (launch.start.run world).2).1 := rfl

variable {launches : List (Launch σ)} {world : World σ} {earlier later : List (RunFailure × Option Int)} {failure : RunFailure}
variable {answer : Option Int}

/-- Every failure is answered with the exit code of the last failure so far that had one, or else with the one that the last resort knew
before. -/
theorem answer_of_startAll (h : ((startAll launches).run world).1 = earlier ++ (failure, answer) :: later) :
    answer = lastCode (world.suppressor.exitCode :: (earlier.map (·.1.exitCode) ++ [failure.exitCode])) := by
  induction launches generalizing world earlier with
  | nil =>
    obtain ⟨-, hcons⟩ := List.append_eq_nil_iff.mp h.symm
    nomatch hcons
  | cons launch rest ih =>
    rw [startAll_cons] at h
    rcases launch.start_cases world with ⟨hnone, hknown⟩ | ⟨other, code, hsome, hknown, hcode⟩
    · rw [hnone] at h
      rw [ih h, hknown]
    · rw [hsome] at h
      rcases List.cons_eq_append_iff.mp h with ⟨rfl, heq⟩ | ⟨between, rfl, hrest⟩
      · obtain ⟨⟨rfl, rfl⟩, -⟩ := by simpa using heq
        rw [List.map_nil, List.nil_append, lastCode_cons_cons, ← hcode, lastCode_singleton]
      · rw [ih hrest, hknown, List.map_cons, List.cons_append, lastCode_cons_cons, ← hcode]

/-- Every failure is answered with the exit code of the last failure so far that had one, or else with the one that the last resort knew
before; so it is answered with its own code, or nothing if it has none, exactly if it has one or nothing before it had one. -/
theorem answers_of_launches (launches : List (Launch σ)) (world : World σ) (earlier later : List (RunFailure × Option Int))
    (failure : RunFailure) (answer : Option Int)
    (h : ((startAll launches).run world).1 = earlier ++ (failure, answer) :: later) :
    answer = lastCode (world.suppressor.exitCode :: (earlier.map (·.1.exitCode) ++ [failure.exitCode])) ∧
      (answer = (if failure.exitCode = 0 then none else some failure.exitCode) ↔
        failure.exitCode ≠ 0 ∨ world.suppressor.exitCode = 0 ∧ ∀ handled ∈ earlier, handled.1.exitCode = 0) := by
  refine ⟨answer_of_startAll h, ?_⟩
  rw [answer_of_startAll h, ← List.cons_append, lastCode_concat]
  by_cases hcode : failure.exitCode = 0
  · rw [if_neg (not_not_intro hcode), if_pos hcode, lastCode_eq_none_iff, List.forall_mem_cons, List.forall_mem_map]
    exact (or_iff_right (not_not_intro hcode)).symm
  · simp [hcode]

/-- Two runs of one application: the first asks for an exit code, and the command line of the second is invalid. -/
def askingThenInvalid : List (Launch (List ContainerState)) :=
  [{ app := Application.applicationThatAsksFor 3, args := [] }, { app := Application.applicationThatAsksFor 3, args := ["--=x"] }]

/-- The second run fails without an exit code, and its failure is answered with the code of the first. -/
theorem answers_of_launches_askingThenInvalid :
    ∃ first second, ((startAll askingThenInvalid).run { state := [] }).1 = [first, second] ∧ first.1.exitCode = 3 ∧
      second.1.exitCode = 0 ∧ second.2 = some 3 := by
  have hcodes : ((startAll askingThenInvalid).run { state := [] }).1.map (·.1.exitCode) = [3, 0] := by decide +kernel
  obtain ⟨first, rest, hstarted, hfirst, hrest⟩ := List.map_eq_cons_iff.mp hcodes
  obtain ⟨second, last, rfl, hsecond, hlast⟩ := List.map_eq_cons_iff.mp hrest
  obtain rfl := List.map_eq_nil_iff.mp hlast
  have hanswer := (answers_of_launches askingThenInvalid { state := [] } [first] [] second.1 second.2 hstarted).1
  refine ⟨first, second, hstarted, hfirst, hsecond, ?_⟩
  rw [hanswer, List.map_singleton, hfirst, hsecond]
  decide

/-- So not every failure is answered with its own exit code. -/
theorem not_own_code_askingThenInvalid :
    ¬ ∀ handled ∈ ((startAll askingThenInvalid).run { state := [] }).1,
      handled.2 = if handled.1.exitCode = 0 then none else some handled.1.exitCode := by
  decide +kernel

end Launch

end Ignition
