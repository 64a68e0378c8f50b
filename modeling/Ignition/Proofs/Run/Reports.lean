import Ignition.Proofs.Run.Status

/-!
# Failures are reported once

A last resort is used in any order: failures are registered with it, by hand or by runs that share it, it is asked whether it knows a
failure, and it deals with failures. What it knows then are the failures registered since it last dealt with one, told apart by their
numbers (`Suppressor.ReportedSince`), and it tells of a failure exactly if it does not know it or the failure is about the log
(`Suppressor.reports_of_history`). So the failure of a run is not told of once more by the last resort that deals with it next.
-/

namespace Ignition

variable {σ : Type}

/-- A text occurs in another exactly if it is a part of it. -/
theorem Text.occursIn_iff {needle text : List Char} : Text.occursIn needle text = true ↔ needle <:+: text := by
  induction text with
  | nil => rw [occursIn, List.isEmpty_iff, List.infix_nil]
  | cons c text ih => rw [occursIn, Bool.or_eq_true, List.isPrefixOf_iff_prefix, ih, List.infix_cons_iff]

/-- A failure gets the number of failures before it, and a run that succeeds reports none. -/
theorem Application.failures_of_run (app : Application σ) (args : List String) (world : World σ) :
    match app.run args world with
    | (.ok _, after) => after.failures = world.failures
    | (.error failure, after) => failure.number = world.failures ∧ after.failures = world.failures + 1 := by
  rcases app.breaksOff_or_succeeds args world.state with
    ⟨error, container, before, state, hbreak⟩ | ⟨arguments, env, container, steps, state, hserved, hpromoted⟩
  · obtain ⟨failure, after, hrun, hdealt⟩ := hbreak.dealtWith
    rw [hrun]
    exact ⟨congrArg RunFailure.number hdealt.failure_eq, hdealt.failures_eq⟩
  · obtain ⟨after, hrun, hleads⟩ := hserved.run hpromoted
    rw [hrun]
    exact hleads.failures_eq

namespace Suppressor

/-! ## What is known -/

/-- A failure is about the log if the words of some failure in its chain say so. -/
def AboutLog (failure : Failure) : Prop :=
  ∃ text ∈ failure.messages, logConfigurationError.toList <:+: text.toList

/-- A failure is about the log exactly if one of its faults is. -/
theorem isAboutLog_iff {failure : Failure} : isAboutLog failure = true ↔ AboutLog failure := by
  simp only [isAboutLog, List.any_eq_true, Text.contains, Text.occursIn_iff, AboutLog]

/-- Besides the failures that were known, the one is known that was registered. -/
theorem isRegistered_register_iff (suppressor : Suppressor) (failure other : RunFailure) :
    (suppressor.register failure).isRegistered (.run other) = true ↔
      failure.isSame other = true ∨ suppressor.isRegistered (.run other) = true := by
  simp only [register, isRegistered, RunFailure.isSame, decide_eq_true_eq]
  split
  case isTrue hknown =>
    refine (or_iff_right_of_imp fun hsame => ?_).symm
    rwa [← hsame]
  case isFalse => rw [List.contains_iff_mem, List.contains_iff_mem, List.mem_append, List.mem_singleton, or_comm, eq_comm]

/-- A run that shares the last resort registers its failure. -/
theorem isRegistered_remembered_iff (app : Application σ) (suppressor : Suppressor) (failure other : RunFailure) :
    (app.remembered failure suppressor).isRegistered (.run other) = true ↔
      (app.usesSuppressor = true ∧ failure.isSame other = true) ∨ suppressor.isRegistered (.run other) = true := by
  rw [Application.remembered]
  cases app.usesSuppressor with
  | false => simp
  | true =>
    rw [if_pos rfl, isRegistered_register_iff]
    split <;> simp [registerCode, isRegistered]

/-! ## Uses -/

/-- What may be done with a last resort. -/
inductive Use (σ : Type) where
  /-- A failure is registered. -/
  | register (failure : RunFailure)
  /-- An exit code is registered. -/
  | registerCode (code : Int)
  /-- It is asked whether a failure is known. -/
  | ask (escaped : EscapedFailure)
  /-- A failure is dealt with. -/
  | handle (escaped : EscapedFailure)
  /-- An application is run over arguments. -/
  | run (app : Application σ) (args : List String)

/-- What came of it. -/
inductive Occurrence where
  /-- A failure was registered. -/
  | registered (failure : RunFailure)
  /-- An exit code was registered. -/
  | coded (code : Int)
  /-- The question for a failure was answered. -/
  | asked (escaped : EscapedFailure) (known : Bool)
  /-- A failure was dealt with, with an exit code or none for an answer. -/
  | handled (escaped : EscapedFailure) (code : Option Int)
  /-- An application ran, perhaps sharing the last resort; if it failed, this is the failure. -/
  | ran (shares : Bool) (failure? : Option RunFailure)

/-- Does it. -/
def Use.perform : Use σ → Running σ Occurrence
  | register failure => do
    modify fun world => { world with suppressor := world.suppressor.register failure }
    return .registered failure
  | registerCode code => do
    modify fun world => { world with suppressor := world.suppressor.registerCode code }
    return .coded code
  | ask escaped => return .asked escaped ((← get).suppressor.isRegistered escaped)
  | handle escaped => do
    let handling := (← get).suppressor.handle escaped
    modify fun world => { world with suppressor := handling.suppressor }
    handling.log.forM Running.tell
    return .handled escaped handling.exitCode
  | run app args => do
    match ← app.run args with
    | .ok _ => return .ran app.usesSuppressor none
    | .error failure => return .ran app.usesSuppressor (some failure)

/-- Does one thing after the other. -/
def Use.performAll : List (Use σ) → Running σ (List Occurrence)
  | [] => return []
  | use :: rest => do
    let occurrence ← use.perform
    return occurrence :: (← performAll rest)

namespace Occurrence

/-- The failure that is registered by it. -/
def reported? : Occurrence → Option RunFailure
  | registered failure => some failure
  | ran true failure? => failure?
  | _ => none

/-- The failure that a run returned. -/
def returned? : Occurrence → Option RunFailure
  | ran _ failure? => failure?
  | _ => none

/-- Whether a failure was dealt with. -/
def isHandling : Occurrence → Bool
  | handled _ _ => true
  | _ => false

end Occurrence

/-- The failures that were registered since one was last dealt with. -/
def reportedSince (trace : List Occurrence) : List RunFailure :=
  (trace.rtakeWhile (!·.isHandling)).filterMap Occurrence.reported?

/-- A failure is the failure of a run, and was registered since one was last dealt with. -/
def ReportedSince (trace : List Occurrence) (escaped : EscapedFailure) : Prop :=
  ∃ failure, escaped = .run failure ∧ ∃ reported ∈ reportedSince trace, reported.isSame failure = true

variable {trace earlier since : List Occurrence} {occurrence : Occurrence} {failure : RunFailure}

/-- Handling a failure forgets those reported before; anything else adds what it reports. -/
theorem reportedSince_concat : reportedSince (trace ++ [occurrence]) =
    if occurrence.isHandling then [] else reportedSince trace ++ occurrence.reported?.toList := by
  rw [reportedSince, List.rtakeWhile_concat]
  cases occurrence.isHandling with
  | true => rfl
  | false =>
    simp only [Bool.not_false, if_true, List.filterMap_append, Bool.false_eq_true, if_false, reportedSince]
    cases h : occurrence.reported? <;> simp [h]

/-- What was registered is known until a failure is dealt with. -/
theorem mem_reportedSince (hreported : occurrence.reported? = some failure) (hhandling : occurrence.isHandling = false)
    (hsince : ∀ later ∈ since, later.isHandling = false) : failure ∈ reportedSince (earlier ++ occurrence :: since) := by
  induction since using List.reverseRecOn with
  | nil => simp [reportedSince_concat, hhandling, hreported]
  | append_singleton since later ih =>
    rw [List.forall_mem_append, List.forall_mem_singleton] at hsince
    rw [← List.cons_append, ← List.append_assoc, reportedSince_concat, hsince.2]
    exact List.mem_append_left _ (ih hsince.1)

/-! ## Histories -/

/-- One more use comes behind the others, in the world that they leave. -/
theorem Use.performAll_concat (uses : List (Use σ)) (use : Use σ) (world : World σ) :
    (performAll (uses ++ [use])).run world =
      (((performAll uses).run world).1 ++ [(use.perform.run ((performAll uses).run world).2).1],
        (use.perform.run ((performAll uses).run world).2).2) := by
  induction uses generalizing world with
  | nil => rfl
  | cons first rest ih =>
    simp only [List.cons_append, performAll, Running.run_bind, ih]
    rfl

theorem Use.perform_handle (escaped : EscapedFailure) (world : World σ) :
    (handle escaped : Use σ).perform.run world =
      (.handled escaped (world.suppressor.handle escaped).exitCode, { world with
        suppressor := (world.suppressor.handle escaped).suppressor
        log := world.log ++ (world.suppressor.handle escaped).log.map .event }) := by
  have htold := Running.run_forM_tell (world.suppressor.handle escaped).log
    { world with suppressor := (world.suppressor.handle escaped).suppressor }
  change ((.handled escaped (world.suppressor.handle escaped).exitCode : Occurrence), (((world.suppressor.handle escaped).log.forM
    Running.tell).run { world with suppressor := (world.suppressor.handle escaped).suppressor }).2) = _
  rw [htold]

theorem Use.perform_run (app : Application σ) (args : List String) (world : World σ) :
    (run app args : Use σ).perform.run world =
      (.ran app.usesSuppressor (match (app.run args world).1 with | .ok _ => none | .error failure => some failure),
        (app.run args world).2) := by
  rw [perform, Running.run_bind]
  change (match (app.run args world).1 with | .ok _ => _ | .error failure => _ : Running σ Occurrence).run (app.run args world).2 = _
  cases (app.run args world).1 <;> rfl

/-- What is known after one more use: nothing if a failure was dealt with, and otherwise what was known and what was registered. -/
theorem Use.isRegistered_perform (use : Use σ) (world : World σ) (other : RunFailure) :
    (use.perform.run world).2.suppressor.isRegistered (.run other) = true ↔
      (use.perform.run world).1.isHandling = false ∧
        ((∃ failure, (use.perform.run world).1.reported? = some failure ∧ failure.isSame other = true) ∨
          world.suppressor.isRegistered (.run other) = true) := by
  cases use with
  | register failure =>
    change (world.suppressor.register failure).isRegistered (.run other) = true ↔
      false = false ∧ ((∃ reported, some failure = some reported ∧ _) ∨ _)
    simp [isRegistered_register_iff]
  | registerCode code =>
    change world.suppressor.isRegistered (.run other) = true ↔ false = false ∧ ((∃ reported, none = some reported ∧ _) ∨ _)
    simp
  | ask escaped =>
    change world.suppressor.isRegistered (.run other) = true ↔ false = false ∧ ((∃ reported, none = some reported ∧ _) ∨ _)
    simp
  | handle escaped =>
    rw [perform_handle]
    exact iff_of_false Bool.false_ne_true fun h => nomatch h.1
  | run app args =>
    have hafter := app.suppressor_of_run args world
    rw [perform_run]
    generalize app.run args world = ended at hafter ⊢
    rcases ended with ⟨failure | container, after⟩
    · rw [hafter.1, isRegistered_remembered_iff]
      cases app.usesSuppressor <;> simp [Occurrence.isHandling, Occurrence.reported?]
    · have hsame : after.suppressor = world.suppressor := hafter
      rw [hsame]
      cases app.usesSuppressor <;> simp [Occurrence.isHandling, Occurrence.reported?]

/-- What is known after a history is what was registered since a failure was last dealt with. -/
theorem Use.isRegistered_performAll (uses : List (Use σ)) (start : World σ) (other : RunFailure) :
    ((performAll uses).run { start with suppressor := {} }).2.suppressor.isRegistered (.run other) = true ↔
      ∃ reported ∈ reportedSince ((performAll uses).run { start with suppressor := {} }).1, reported.isSame other = true := by
  induction uses using List.reverseRecOn with
  | nil => exact iff_of_false Bool.false_ne_true fun ⟨_, h, _⟩ => nomatch h
  | append_singleton uses use ih =>
    rw [performAll_concat]
    generalize (performAll uses).run { start with suppressor := {} } = between at ih ⊢
    rw [use.isRegistered_perform, ih, reportedSince_concat]
    generalize (use.perform.run between.2).1 = occurrence
    cases occurrence.isHandling with
    | true => simp
    | false =>
      rw [if_neg Bool.false_ne_true]
      simp only [true_and, List.mem_append, Option.mem_toList, or_and_right, exists_or, or_comm]

/-- One more use reports no failure, or is a run that reports one and returns it with the next number. -/
theorem Use.failures_perform (use : Use σ) (world : World σ) :
    ((use.perform.run world).1.returned? = none ∧ (use.perform.run world).2.failures = world.failures) ∨
      ∃ failure, (use.perform.run world).1.returned? = some failure ∧ failure.number = world.failures ∧
        (use.perform.run world).2.failures = world.failures + 1 := by
  cases use with
  | register | registerCode | ask => exact .inl ⟨rfl, rfl⟩
  | handle escaped =>
    rw [perform_handle]
    exact .inl ⟨rfl, rfl⟩
  | run app args =>
    have hafter := app.failures_of_run args world
    rw [perform_run]
    generalize app.run args world = ended at hafter ⊢
    rcases ended with ⟨failure | container, after⟩
    · exact .inr ⟨failure, rfl, hafter⟩
    · exact .inl ⟨rfl, hafter⟩

/-- Runs of one history return different failures: each has a number that was not given before. -/
theorem Use.pairwise_returned (uses : List (Use σ)) (start : World σ) :
    (((performAll uses).run start).1.filterMap Occurrence.returned?).Pairwise
        (fun failure other => failure.isSame other = false) ∧
      ∀ failure ∈ ((performAll uses).run start).1.filterMap Occurrence.returned?,
        failure.number < ((performAll uses).run start).2.failures := by
  induction uses using List.reverseRecOn with
  | nil => exact ⟨.nil, nofun⟩
  | append_singleton uses use ih =>
    rw [performAll_concat]
    generalize (performAll uses).run start = between at ih ⊢
    obtain ⟨hpairwise, hnumbers⟩ := ih
    have hstep := use.failures_perform between.2
    generalize use.perform.run between.2 = ended at hstep ⊢
    simp only [List.filterMap_append, List.filterMap_cons, List.filterMap_nil]
    rcases hstep with ⟨hnone, hsame⟩ | ⟨failure, hsome, hnumber, hnext⟩
    · simp only [hnone, List.append_nil, hsame]
      exact ⟨hpairwise, hnumbers⟩
    · simp only [hsome, hnext, List.forall_mem_append, List.forall_mem_singleton, hnumber]
      refine ⟨List.pairwise_append.mpr ⟨hpairwise, List.pairwise_singleton .., fun other hother last hlast => ?_⟩,
        fun other hother => Nat.lt_succ_of_lt (hnumbers other hother), Nat.lt_succ_self _⟩
      rw [List.mem_singleton.mp hlast]
      exact decide_eq_false (hnumber ▸ Nat.ne_of_lt (hnumbers other hother))

/-- What is told of a failure that is dealt with. -/
theorem Use.log_handle (escaped : EscapedFailure) (world : World σ) :
    ((handle escaped : Use σ).perform.run world).2.log =
      world.log ++ if world.suppressor.reports escaped then [.event (event escaped.failure)] else [] := by
  rw [perform_handle]
  simp only [Suppressor.handle, List.append_cancel_left_eq]
  split <;> rfl

/-- A last resort that nothing is known to is used in some way. After that it knows the failures of runs that were registered since a
failure was last dealt with, and no others. If a failure is dealt with next, it is told of in the log, once and as an error, in its own
words and those of its causes, if it is not known so or is about the log; and not at all otherwise. So a failure that was returned by a run
that shares the last resort is not told of then, unless it is about the log. No two runs return the same failure. -/
theorem reports_of_history (uses : List (Use σ)) (start : World σ) :
    let (trace, after) := (Use.performAll uses).run { start with suppressor := {} }
    (∀ escaped, after.suppressor.isRegistered escaped = true ↔ ReportedSince trace escaped) ∧
    (∀ escaped, ¬ ReportedSince trace escaped ∨ AboutLog escaped.failure →
      ((Use.handle escaped : Use σ).perform.run after).2.log = after.log ++ [.event {
        level := .error
        target := "liftoff::suppressor"
        message := "application failed"
        fields := [("error", .text escaped.failure.message), ("causes", .text (Text.quotedList escaped.failure.messages))] }]) ∧
    (∀ escaped, ReportedSince trace escaped ∧ ¬ AboutLog escaped.failure →
      ((Use.handle escaped : Use σ).perform.run after).2.log = after.log) ∧
    (∀ earlier failure since, trace = earlier ++ .ran true (some failure) :: since →
      (∀ occurrence ∈ since, occurrence.isHandling = false) → ¬ AboutLog failure.error.failure →
      ((Use.handle (.run failure) : Use σ).perform.run after).2.log = after.log) ∧
    (trace.filterMap Occurrence.returned?).Pairwise fun failure other => failure.isSame other = false := by
  have hknown := Use.isRegistered_performAll uses start
  have hnumbers := (Use.pairwise_returned uses { start with suppressor := {} }).1
  generalize (Use.performAll uses).run { start with suppressor := {} } = performed at hknown hnumbers ⊢
  obtain ⟨trace, after⟩ := performed
  have hregistered (escaped : EscapedFailure) : after.suppressor.isRegistered escaped = true ↔ ReportedSince trace escaped := by
    cases escaped with
    | run failure => simp [ReportedSince, hknown]
    | other failure => simp [ReportedSince, isRegistered]
  have hreports (escaped : EscapedFailure) :
      after.suppressor.reports escaped = true ↔ ¬ ReportedSince trace escaped ∨ AboutLog escaped.failure := by
    rw [reports, Bool.or_eq_true, isAboutLog_iff, Bool.not_eq_true', ← Bool.not_eq_true, hregistered, or_comm]
  have hsilent (escaped : EscapedFailure) (h : ReportedSince trace escaped ∧ ¬ AboutLog escaped.failure) :
      ((Use.handle escaped : Use σ).perform.run after).2.log = after.log := by
    rw [Use.log_handle, if_neg fun hreport => ((hreports escaped).mp hreport).elim (absurd h.1) h.2, List.append_nil]
  refine ⟨hregistered, fun escaped h => ?_, hsilent, fun earlier failure since htrace hsince hnot => ?_, hnumbers⟩
  · rw [Use.log_handle, if_pos ((hreports escaped).mpr h)]
    rfl
  · refine hsilent (.run failure) ⟨⟨failure, rfl, failure, ?_, decide_eq_true rfl⟩, hnot⟩
    rw [htrace]
    exact mem_reportedSince rfl rfl hsince

/-- A run that asks for an exit code shares the last resort, which is not told of another failure. -/
theorem reports_of_history_asking :
    ∃ failure after, (Use.performAll [.run (Application.applicationThatAsksFor 3) []]).run { state := [] } =
        ([.ran true (some failure)], after) ∧
      ((Use.handle (.run failure)).perform.run after).2.log = after.log ∧
      ((Use.handle (.other (.because (.plain "no disk") (.ofText "full")))).perform.run after).2.log = after.log ++ [.event {
        level := .error
        target := "liftoff::suppressor"
        message := "application failed"
        fields := [("error", .text "no disk"), ("causes", .text (Text.quotedList ["no disk", "full"]))] }] := by
  have hshares : (Application.applicationThatAsksFor 3).usesSuppressor = true := rfl
  have hfailed : (match ((Application.applicationThatAsksFor 3).run [] { state := [] }).1 with
      | .error failure => isAboutLog failure.error.failure
      | .ok _ => true) = false := by decide +kernel
  generalize Application.applicationThatAsksFor 3 = app at hshares hfailed ⊢
  have hperformed := Use.perform_run app [] { state := [] }
  have hhistory := reports_of_history [.run app []] { state := [] }
  generalize app.run [] { state := [] } = ended at hfailed hperformed
  rcases ended with ⟨failure | container, after⟩
  · have htrace : (Use.performAll [.run app []]).run { state := [] } = ([.ran true (some failure)], after) := by
      rw [Use.performAll, Running.run_bind, hperformed, hshares]
      rfl
    have hnot : ¬ AboutLog failure.error.failure := fun habout => nomatch (isAboutLog_iff.mpr habout).symm.trans hfailed
    simp only [htrace] at hhistory
    obtain ⟨-, htold, -, hsilent, -⟩ := hhistory
    have hother := htold (.other (.because (.plain "no disk") (.ofText "full"))) (.inl fun ⟨_, hrun, _⟩ => nomatch hrun)
    have hmessage : (Failure.because (.plain "no disk") (.ofText "full")).message = "no disk" := by decide +kernel
    have hmessages : (Failure.because (.plain "no disk") (.ofText "full")).messages = ["no disk", "full"] := by decide +kernel
    simp only [EscapedFailure.failure, hmessage, hmessages] at hother
    exact ⟨failure, after, htrace, hsilent [] failure [] rfl nofun hnot, hother⟩
  · nomatch hfailed

end Suppressor

end Ignition
