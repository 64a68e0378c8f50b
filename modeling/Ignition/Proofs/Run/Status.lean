import Ignition.Program
import Ignition.Proofs.Run.ExitCodes
import Ignition.Proofs.Run.Failing

/-!
# The exit status

A process ends with its exit code modulo 256. The exit code itself is any integer that someone asks for: a mapper of the container or
a request in the chain of the failure if the run failed, a contributor if it succeeded. So a code that is a multiple of 256 is lost on
the way, and a run that failed with one looks successful; no other code is lost (`Application.status_of_run`).
-/

namespace Ignition

variable {σ : Type}

/-! ## Where exit codes come from -/

/-- The code that a contribution counts as. -/
def Contribution.value : Contribution → Int
  | .code value => value
  | .failed _ => 1

namespace ExitCode

/-- A contribution leaves the code or takes its place. -/
theorem after_eq (current : Int) (contribution : Contribution) :
    after current contribution = current ∨ after current contribution = contribution.value := by
  cases contribution with
  | code value =>
    rw [after]
    split
    · exact .inr rfl
    · exact .inl rfl
  | failed failure =>
    rw [after]
    split
    · exact .inr rfl
    · exact .inl rfl

/-- The code that contributions make together is one of theirs, or what there was before. -/
theorem foldl_after_mem (contributions : List Contribution) (current : Int) :
    contributions.foldl after current ∈ current :: contributions.map (·.value) := by
  induction contributions generalizing current with
  | nil => exact List.mem_singleton_self _
  | cons contribution rest ih =>
    have hrest := ih (after current contribution)
    rw [List.foldl_cons, List.map_cons]
    rcases after_eq current contribution with heq | heq
    · rw [heq] at hrest ⊢
      exact List.mem_cons.mpr ((List.mem_cons.mp hrest).imp_right (List.mem_cons_of_mem _))
    · rw [heq] at hrest ⊢
      exact List.mem_cons_of_mem _ hrest

/-- The code for a failure is zero, or what a mapper makes of the failure, or what the failure asks for. -/
theorem ofFailure_cases (mappers : List ExitCodeMapper) (failure : Failure) :
    ofFailure mappers failure = 0 ∨ (∃ mapper ∈ mappers, mapper failure = ofFailure mappers failure) ∨
      failure.exitCode? = some (ofFailure mappers failure) := by
  have hmem := foldl_after_mem (mappers.map fun mapper => .code (mapper failure)) 0
  rw [List.map_map] at hmem
  change aggregate _ ∈ _ at hmem
  simp only [ofFailure]
  split
  case isTrue hmapped =>
    obtain ⟨mapper, hmapper, heq⟩ := List.mem_map.mp ((List.mem_cons.mp hmem).resolve_left hmapped)
    exact .inr (.inl ⟨mapper, hmapper, heq⟩)
  case isFalse =>
    cases failure.exitCode? with
    | none => exact .inl rfl
    | some code => exact .inr (.inr rfl)

/-- Everything said was said by a contributor. -/
theorem exists_of_mem_said {contributors : List (ExitCodeContributor σ)} {state : σ} {contribution : Contribution}
    (h : contribution ∈ said contributors state) :
    ∃ contributor ∈ contributors, ∃ state, contribution = .ofAnswer (contributor state).1 := by
  induction contributors generalizing state with
  | nil => nomatch h
  | cons contributor rest ih =>
    rcases List.mem_cons.mp h with rfl | hrest
    · exact ⟨contributor, List.mem_cons_self, state, rfl⟩
    · obtain ⟨other, hother, hsaid⟩ := ih hrest
      exact ⟨other, List.mem_cons_of_mem _ hother, hsaid⟩

/-- The code at the end of an application is zero, or one for something that failed, or what a contributor says. -/
theorem exit_cases (container : Container σ) (contributors : List (ExitCodeContributor σ)) (world : World σ) :
    ((exit container contributors).run world).1 = 0 ∨ ((exit container contributors).run world).1 = 1 ∨
      ∃ contributor ∈ container.contributors world.state ++ contributors, ∃ state,
        (contributor state).1 = .ok ((exit container contributors).run world).1 := by
  have hanswer : ((exit container contributors).run world).1 =
        aggregate (said (container.contributors world.state ++ contributors) world.state) ∨
      ((exit container contributors).run world).1 = 1 := by
    rw [(run_exit container contributors world).2]
    split
    · exact .inl rfl
    · split
      · exact .inr rfl
      · exact .inl rfl
  rcases hanswer with hcode | hcode
  · have hmem := foldl_after_mem (said (container.contributors world.state ++ contributors) world.state) 0
    rw [← aggregate, ← hcode] at hmem
    rcases List.mem_cons.mp hmem with hzero | hsaid
    · exact .inl hzero
    · obtain ⟨contribution, hcontribution, hvalue⟩ := List.mem_map.mp hsaid
      obtain ⟨contributor, hcontributor, state, rfl⟩ := exists_of_mem_said hcontribution
      cases hanswer : (contributor state).1 with
      | ok value =>
        rw [hanswer] at hvalue
        exact .inr (.inr ⟨contributor, hcontributor, state, by rw [hanswer, ← hvalue]; rfl⟩)
      | error failure =>
        rw [hanswer] at hvalue
        exact .inr (.inl hvalue.symm)
  · exact .inr (.inl hcode)

/-- Only multiples of 256 look like success. -/
theorem status_eq_zero_iff (code : Int) : status code = 0 ↔ 256 ∣ code := by
  rw [status]
  omega

end ExitCode

/-! ## The end of the process -/

/-- Telling events changes nothing but the log. -/
theorem Running.run_forM_tell (events : List LogEvent) (world : World σ) :
    (events.forM Running.tell).run world = ((), { world with log := world.log ++ events.map .event }) := by
  induction events generalizing world with
  | nil =>
    rw [List.map_nil, List.append_nil]
    rfl
  | cons event rest ih =>
    rw [List.forM, Running.run_bind, ih, List.map_cons, List.append_cons]
    rfl

/-- Deals with a failure of a run at the last resort, and answers with the exit code to end with, if there is one. -/
def Running.handle (failure : RunFailure) : Running σ (Option Int) := do
  let handling := (← get).suppressor.handle (.run failure)
  modify fun world => { world with suppressor := handling.suppressor }
  handling.log.forM Running.tell
  return handling.exitCode

theorem Running.handle_answer (failure : RunFailure) (world : World σ) :
    ((Running.handle failure).run world).1 = if world.suppressor.exitCode = 0 then none else some world.suppressor.exitCode := rfl

namespace Application

/-- The exit code to end with after a run: what a container and some contributors say, or else what the last resort knows, and one if it
knows none. -/
def endingCode (contributors : List (ExitCodeContributor σ)) : Except RunFailure (Container σ) → Running σ Int
  | .ok container => ExitCode.exit container contributors
  | .error failure => do return (← Running.handle failure).getD 1

theorem endingCode_error (contributors : List (ExitCodeContributor σ)) (failure : RunFailure) (world : World σ) :
    ((endingCode contributors (.error failure)).run world).1 =
      if world.suppressor.exitCode ≠ 0 then world.suppressor.exitCode else 1 := by
  rw [endingCode, Running.run_bind, Running.handle_answer]
  by_cases hzero : world.suppressor.exitCode = 0
  · rw [if_pos hzero, if_neg (not_not_intro hzero)]
    rfl
  · rw [if_neg hzero, if_pos hzero]
    rfl

/-- A run that failed always has a code. -/
theorem endingCode_error_ne_zero (contributors : List (ExitCodeContributor σ)) (failure : RunFailure) (world : World σ) :
    ((endingCode contributors (.error failure)).run world).1 ≠ 0 := by
  rw [endingCode_error]
  split
  · assumption
  · exact Int.one_ne_zero

/-- The status of the program is that of the exit code to end with after its run. -/
theorem status_program (surroundings : Program.Surroundings) (args : List String) :
    (Program.run surroundings args).status =
      let (result, after) := (Program.application surroundings).run args { state := {} }
      ExitCode.status ((endingCode [] result).run after).1 := by
  have hcode (result : Except RunFailure (Container Program.Memory)) : Program.exitCode result = endingCode [] result := by
    cases result <;> rfl
  simp only [← hcode]
  rfl

/-- The exit code of a failure is zero unless it is what the failure asks for or what a mapper of the active container makes of it. -/
theorem failureCode_cases (container : Option (Container σ)) (error : RunError) (state : σ) :
    failureCode container error state = 0 ∨ error.failure.exitCode? = some (failureCode container error state) ∨
      ∃ made mapper, container = some made ∧ made.isActive state ∧ mapper ∈ made.mappers state ∧
        mapper error.failure = failureCode container error state := by
  simp only [failureCode]
  cases container with
  | none =>
    rcases ExitCode.ofFailure_cases [] error.failure with hzero | ⟨mapper, hmapper, -⟩ | hrequest
    · exact .inl hzero
    · exact absurd hmapper List.not_mem_nil
    · exact .inr (.inl hrequest)
  | some made =>
    rcases ExitCode.ofFailure_cases (if made.isActive state then made.mappers state else []) error.failure with
      hzero | ⟨mapper, hmapper, hcode⟩ | hrequest
    · exact .inl hzero
    · obtain ⟨hactive, hmem⟩ := List.mem_ite_nil_right.mp hmapper
      exact .inr (.inr ⟨made, mapper, rfl, hactive, hmem, hcode⟩)
    · exact .inr (.inl hrequest)

/-- What is remembered of a failure is its exit code, unless this is zero or the suppressor is not used. -/
theorem exitCode_remembered (app : Application σ) (failure : RunFailure) (suppressor : Suppressor) :
    (app.remembered failure suppressor).exitCode =
      if app.usesSuppressor ∧ failure.exitCode ≠ 0 then failure.exitCode else suppressor.exitCode := by
  rw [remembered]
  cases app.usesSuppressor with
  | false => simp
  | true =>
    rw [if_pos rfl, Suppressor.exitCode_register]
    by_cases hcode : failure.exitCode = 0
    · simp [hcode]
    · simp [hcode, Suppressor.registerCode]

/-- A run that fails broke off somewhere, and the last resort learns of its failure; one that succeeds leaves it alone. -/
theorem suppressor_of_run (app : Application σ) (args : List String) (world : World σ) :
    match app.run args world with
    | (.ok _, after) => after.suppressor = world.suppressor
    | (.error failure, after) => after.suppressor = app.remembered failure world.suppressor ∧
      ∃ container before state, app.BreaksOff args world.state failure.error container before state ∧
        failure.exitCode = failureCode container failure.error state := by
  rcases app.breaksOff_or_succeeds args world.state with
    ⟨error, container, before, state, hbreak⟩ | ⟨arguments, env, container, steps, state, hserved, hpromoted⟩
  · obtain ⟨failure, after, hrun, hdealt⟩ := hbreak.dealtWith
    obtain rfl : error = failure.error := by rw [hdealt.failure_eq]
    rw [hrun]
    exact ⟨hdealt.suppressor_eq, container, before, state, hbreak, congrArg RunFailure.exitCode hdealt.failure_eq⟩
  · obtain ⟨after, hrun, hleads⟩ := hserved.run hpromoted
    rw [hrun]
    exact hleads.suppressor_eq

/-- A process looks successful after a run that failed, or that ended with a code, exactly if its exit code is a multiple of 256. After a
run that failed this is the code of the failure, which the failure asks for or a mapper of the active container makes of it; if there is
none, it is the code that the last resort knew before, or one. At the end of a run that succeeded it is what a contributor says, or one
for something that failed. -/
theorem status_of_run (app : Application σ) (args : List String) (contributors : List (ExitCodeContributor σ)) (world : World σ) :
    match app.run args world with
    | (.error failure, after) =>
      ∃ code container before state, ((endingCode contributors (.error failure)).run after).1 = code ∧ code ≠ 0 ∧
        (ExitCode.status code = 0 ↔ 256 ∣ code) ∧
        (code = if app.usesSuppressor ∧ failure.exitCode ≠ 0 then failure.exitCode
          else if world.suppressor.exitCode ≠ 0 then world.suppressor.exitCode else 1) ∧
        app.BreaksOff args world.state failure.error container before state ∧
        (failure.exitCode = 0 ∨ failure.error.failure.exitCode? = some failure.exitCode ∨
          ∃ made mapper, container = some made ∧ made.isActive state ∧ mapper ∈ made.mappers state ∧
            mapper failure.error.failure = failure.exitCode)
    | (.ok container, after) =>
      ∃ code, ((endingCode contributors (.ok container)).run after).1 = code ∧
        (ExitCode.status code = 0 ↔ 256 ∣ code) ∧
        (code = 0 ∨ code = 1 ∨ ∃ contributor ∈ container.contributors after.state ++ contributors, ∃ state,
          (contributor state).1 = .ok code) := by
  have hafter := app.suppressor_of_run args world
  generalize app.run args world = ended at hafter ⊢
  rcases ended with ⟨failure | container, after⟩
  · obtain ⟨hsuppressor, container, before, state, hbreak, hcode⟩ := hafter
    have hasked := failureCode_cases container failure.error state
    rw [← hcode] at hasked
    refine ⟨_, container, before, state, rfl, endingCode_error_ne_zero contributors failure after,
      ExitCode.status_eq_zero_iff _, ?_, hbreak, hasked⟩
    rw [endingCode_error, hsuppressor, exitCode_remembered]
    by_cases hregistered : app.usesSuppressor ∧ failure.exitCode ≠ 0
    · rw [if_pos hregistered, if_pos hregistered, if_pos hregistered.2]
    · rw [if_neg hregistered, if_neg hregistered]
  · exact ⟨_, rfl, ExitCode.status_eq_zero_iff _, ExitCode.exit_cases container contributors after⟩

/-- An application whose only runner asks for an exit code. -/
def applicationThatAsksFor (code : Int) : Application (List ContainerState) where
  factory := MemoryContainer.factory ⟨id, fun states _ => states⟩
    { runners := [{ name := "r", run := fun _ => .answer (.error { fault := .exitRequest code "quit" }) }] }
  environment := {}
  resources _ := fun _ => .ok none
  usesSuppressor := true

/-- A run that failed with exit code 256 looks successful. -/
theorem status_zero_of_256 :
    ∃ failure after, (applicationThatAsksFor 256).run [] { state := [] } = (.error failure, after) ∧ failure.exitCode = 256 ∧
      ExitCode.status ((endingCode [] (.error failure)).run after).1 = 0 := by
  have hfailed : (match ((applicationThatAsksFor 256).run [] { state := [] }).1 with
      | .error failure => some failure.exitCode
      | .ok _ => none) = some 256 := by decide +kernel
  have hstatus : ExitCode.status ((endingCode [] ((applicationThatAsksFor 256).run [] { state := [] }).1).run
      ((applicationThatAsksFor 256).run [] { state := [] }).2).1 = 0 := by decide +kernel
  generalize (applicationThatAsksFor 256).run [] { state := [] } = ended at hfailed hstatus
  rcases ended with ⟨failure | container, after⟩
  · exact ⟨failure, after, rfl, Option.some.inj hfailed, hstatus⟩
  · nomatch hfailed

end Application

end Ignition
