import Ignition.Container.Memory
import Ignition.Proofs.Run.Parts
import Mathlib.Data.List.DropRight
import Mathlib.Data.List.Induction
import Mathlib.Order.Bounds.Defs

/-!
# Exit codes

The contributions to an exit code make zero exactly if all of them are zero (`ExitCode.aggregate_eq_zero_iff`): a code that is not zero
stands until another one takes its place. What they make otherwise depends on the last of them only that have one sign, if one that
failed is counted as one or as zero (`ExitCode.aggregate_closed_form`). The code for an error is made of what mappers say in the same way,
with the code that the error requests behind them (`Application.failureCode_of_chain`). An application that ends asks its contributors,
publishes what they make and closes its container (`ExitCode.outcome_of_exit`).
-/

namespace Ignition

variable {σ : Type}

namespace ExitCode

section Aggregation

variable {current code value last : Int} {values : List Int} {contribution : Contribution} {contributions earlier : List Contribution}

/-! ## Zero -/

/-- A contribution leaves the code at zero only if it is zero itself. -/
theorem after_eq_zero_iff : after current contribution = 0 ↔ current = 0 ∧ contribution = .code 0 := by
  cases contribution with
  | code value =>
    simp only [after, Contribution.code.injEq]
    split
    case isTrue h =>
      simp only [Bool.or_eq_true, Bool.and_eq_true, decide_eq_true_eq] at h
      omega
    case isFalse h =>
      simp only [Bool.or_eq_true, Bool.and_eq_true, decide_eq_true_eq] at h
      omega
  | failed failure =>
    simp only [after]
    split <;> simp_all

/-- A contribution behind others acts on the code that they make. -/
theorem aggregate_concat : aggregate (contributions ++ [contribution]) = after (aggregate contributions) contribution := by
  simp [aggregate]

/-- The code is zero exactly if all contributions are: none takes it back to zero. -/
theorem aggregate_eq_zero_iff : aggregate contributions = 0 ↔ ∀ contribution ∈ contributions, contribution = .code 0 := by
  induction contributions using List.reverseRecOn with
  | nil => simp [aggregate]
  | append_singleton contributions contribution ih =>
    rw [aggregate_concat, after_eq_zero_iff, ih, List.forall_mem_append, List.forall_mem_singleton]

/-! ## What contributions count as -/

/-- What a contribution counts as behind earlier ones: a code as it is; one that failed as one if all earlier ones were zero and none of
them failed, and as zero otherwise. -/
def countedAs (earlier : List Contribution) : Contribution → Int
  | .code value => value
  | .failed _ => if ∀ other ∈ earlier, other = .code 0 then 1 else 0

/-- What contributions count as behind earlier ones. -/
def countedBehind (earlier : List Contribution) : List Contribution → List Int
  | [] => []
  | contribution :: rest => countedAs earlier contribution :: countedBehind (earlier ++ [contribution]) rest

/-- What contributions count as. -/
def counted (contributions : List Contribution) : List Int :=
  countedBehind [] contributions

/-- A contribution behind others counts by what stands before it. -/
theorem countedBehind_concat : countedBehind earlier (contributions ++ [contribution]) =
    countedBehind earlier contributions ++ [countedAs (earlier ++ contributions) contribution] := by
  induction contributions generalizing earlier with
  | nil => simp [countedBehind]
  | cons first rest ih => simp [countedBehind, ih]

/-- What a contribution behind others counts as does not change what they count as. -/
theorem counted_concat : counted (contributions ++ [contribution]) = counted contributions ++ [countedAs contributions contribution] :=
  countedBehind_concat

/-- A contribution makes of the code behind earlier ones what the value makes of it that it counts as. -/
theorem after_countedAs : after (aggregate contributions) (.code (countedAs contributions contribution)) =
    after (aggregate contributions) contribution := by
  cases contribution with
  | code value => rfl
  | failed failure =>
    simp only [countedAs, ← aggregate_eq_zero_iff]
    by_cases hzero : aggregate contributions = 0
    · simp [after, hzero]
    · simp [after, hzero]

/-! ## The last codes of one sign -/

/-- The longest run at the end of some values that have the sign of a last one. -/
def finalRun (last : Int) (values : List Int) : List Int :=
  values.rtakeWhile fun value => value.sign = last.sign

/-- A value of the sign joins the last run, and one of another sign leaves nothing of it. -/
theorem finalRun_concat : finalRun last (values ++ [value]) = if value.sign = last.sign then finalRun last values ++ [value] else [] := by
  simp [finalRun, List.rtakeWhile_concat]

/-- The last run depends on the sign of the last value only. -/
theorem finalRun_congr (h : value.sign = last.sign) : finalRun value values = finalRun last values := by
  simp only [finalRun, h]

/-- All values of the last run are of one sign. -/
theorem sign_of_mem_finalRun (h : value ∈ finalRun last values) : value.sign = last.sign := by
  simpa using List.mem_rtakeWhile_imp h

/-- A code of the sign that the code has already counts if it is farther from zero. -/
theorem after_of_sign_eq (h : current.sign = value.sign) :
    after current (.code value) = if current.natAbs < value.natAbs then value else current := by
  grind [after]

/-- A code of another sign always counts. -/
theorem after_of_sign_ne (hvalue : value ≠ 0) (h : current.sign ≠ value.sign) : after current (.code value) = value := by
  grind [after]

/-- A code is settled by values that are not zero: it is zero if there are none, and otherwise the one farthest from zero among the last
ones of one sign. -/
def Settled (values : List Int) (code : Int) : Prop :=
  (values = [] ∧ code = 0) ∨
    ∃ before last, values = before ++ [last] ∧ code ∈ finalRun last values ∧ ∀ value ∈ finalRun last values, value.natAbs ≤ code.natAbs

/-- A code stays settled when one more value comes behind. A value of the same sign joins the last run; one of the other sign is a run by
itself. -/
theorem Settled.concat (h : Settled values code) (hvalue : value ≠ 0) : Settled (values ++ [value]) (after code (.code value)) := by
  refine .inr ⟨values, value, rfl, ?_⟩
  rw [finalRun_concat, if_pos rfl]
  rcases h with ⟨rfl, rfl⟩ | ⟨before, last, rfl, hmem, hfarthest⟩
  · have hsign : (0 : Int).sign ≠ value.sign := by grind
    rw [after_of_sign_ne hvalue hsign]
    simp [finalRun]
  · have hsign : code.sign = last.sign := sign_of_mem_finalRun hmem
    by_cases hsame : last.sign = value.sign
    · rw [finalRun_congr hsame] at hmem hfarthest
      rw [after_of_sign_eq (hsign.trans hsame)]
      by_cases hfarther : code.natAbs < value.natAbs
      · rw [if_pos hfarther]
        refine ⟨List.mem_append_right _ (List.mem_singleton_self value), ?_⟩
        rw [List.forall_mem_append, List.forall_mem_singleton]
        exact ⟨fun other hother => (hfarthest other hother).trans (Nat.le_of_lt hfarther), Nat.le_refl _⟩
      · rw [if_neg hfarther]
        refine ⟨List.mem_append_left _ hmem, ?_⟩
        rw [List.forall_mem_append, List.forall_mem_singleton]
        exact ⟨hfarthest, Nat.not_lt.mp hfarther⟩
    · rw [after_of_sign_ne hvalue (hsign ▸ hsame), finalRun_concat, if_neg hsame]
      simp

/-- The code that contributions make together is settled by what they count as. -/
theorem settled_aggregate (contributions : List Contribution) :
    Settled ((counted contributions).filter (· ≠ 0)) (aggregate contributions) := by
  induction contributions using List.reverseRecOn with
  | nil => exact .inl ⟨rfl, rfl⟩
  | append_singleton contributions contribution ih =>
    rw [aggregate_concat, counted_concat, List.filter_append, ← after_countedAs]
    by_cases hzero : countedAs contributions contribution = 0
    · simpa [hzero, after] using ih
    · have hone : [countedAs contributions contribution].filter (· ≠ 0) = [countedAs contributions contribution] := by
        simp [hzero]
      rw [hone]
      exact ih.concat hzero

/-- Of positive values, the one farthest from zero is the greatest. -/
theorem isGreatest_finalRun (hlast : 0 < last) (hmem : code ∈ finalRun last values)
    (hfarthest : ∀ value ∈ finalRun last values, value.natAbs ≤ code.natAbs) :
    IsGreatest {value | value ∈ finalRun last values} code := by
  refine ⟨hmem, fun value hvalue => ?_⟩
  have hle := hfarthest value hvalue
  have hsign := sign_of_mem_finalRun hvalue
  have hcode := sign_of_mem_finalRun hmem
  grind

/-- Of negative values, it is the least. -/
theorem isLeast_finalRun (hlast : last < 0) (hmem : code ∈ finalRun last values)
    (hfarthest : ∀ value ∈ finalRun last values, value.natAbs ≤ code.natAbs) :
    IsLeast {value | value ∈ finalRun last values} code := by
  refine ⟨hmem, fun value hvalue => ?_⟩
  have hle := hfarthest value hvalue
  have hsign := sign_of_mem_finalRun hvalue
  have hcode := sign_of_mem_finalRun hmem
  grind

end Aggregation

/-- The code that contributions make together is zero if they all count as zero. Otherwise, of those that count as something else, it is the
greatest of the last ones that have the sign of the last one if this is positive, and the least of them if it is negative. -/
theorem aggregate_closed_form (contributions : List Contribution) :
    let nonzero := (counted contributions).filter (· ≠ 0)
    match nonzero.getLast? with
    | none => aggregate contributions = 0
    | some last =>
      if 0 < last then IsGreatest {value | value ∈ finalRun last nonzero} (aggregate contributions)
      else last < 0 ∧ IsLeast {value | value ∈ finalRun last nonzero} (aggregate contributions) := by
  intro nonzero
  rcases settled_aggregate contributions with ⟨hnone, hcode⟩ | ⟨before, last, heq, hmem, hfarthest⟩
  · rw [show nonzero = [] from hnone]
    exact hcode
  · have hlast : nonzero.getLast? = some last := by
      rw [show nonzero = before ++ [last] from heq, List.getLast?_concat]
    have hne : last ≠ 0 := by
      have hfilter : last ∈ nonzero := List.mem_of_getLast? hlast
      simpa using List.of_mem_filter hfilter
    rw [hlast]
    by_cases hpositive : 0 < last
    · simp only [if_pos hpositive]
      exact isGreatest_finalRun hpositive hmem hfarthest
    · have hnegative : last < 0 := by omega
      simp only [if_neg hpositive]
      exact ⟨hnegative, isLeast_finalRun hnegative hmem hfarthest⟩

example : aggregate [.code 0, .failed (.ofText "a"), .code (-2), .code (-5), .failed (.ofText "b"), .code (-4), .code 0] = -5 := by
  decide

end ExitCode

/-! ## The code for a failure -/

section Failures

variable {container : Container σ} {state : σ} {failure : Failure} {code : Int}

/-- The exit code that a fault asks for, if it is a request for one. -/
def Fault.requested? : Fault → Option Int
  | .exitRequest code _ => some code
  | _ => none

/-- A fault asks for an exit code exactly if it is a request for one. -/
theorem Fault.requested?_eq_some_iff {fault : Fault} : fault.requested? = some code ↔ ∃ message, fault = .exitRequest code message := by
  cases fault <;> simp [requested?]

/-- Any other fault asks for none. -/
theorem Fault.requested?_eq_none_iff {fault : Fault} : fault.requested? = none ↔ ∀ code message, fault ≠ .exitRequest code message := by
  cases fault <;> simp [requested?]

/-- A failure requests an exit code: the outermost request in its chain asks for it. -/
def Failure.Requests (failure : Failure) (code : Int) : Prop :=
  ∃ before message after, failure.faults = before ++ .exitRequest code message :: after ∧
    ∀ fault ∈ before, ∀ other message, fault ≠ .exitRequest other message

/-- The exit code of a failure is the one that it requests. -/
theorem Failure.exitCode?_eq_some_iff : failure.exitCode? = some code ↔ failure.Requests code := by
  have hfirst : failure.exitCode? = failure.faults.findSome? Fault.requested? := rfl
  rw [hfirst, List.findSome?_eq_some_iff]
  constructor
  · rintro ⟨before, fault, after, heq, hfault, hbefore⟩
    obtain ⟨message, rfl⟩ := Fault.requested?_eq_some_iff.mp hfault
    exact ⟨before, message, after, heq, fun other hother => Fault.requested?_eq_none_iff.mp (hbefore other hother)⟩
  · rintro ⟨before, message, after, heq, hbefore⟩
    exact ⟨before, _, after, heq, rfl, fun other hother => Fault.requested?_eq_none_iff.mpr (hbefore other hother)⟩

/-- A failure that requests none has none. -/
theorem Failure.exitCode?_eq_none_iff : failure.exitCode? = none ↔ ∀ code, ¬failure.Requests code := by
  rw [Option.eq_none_iff_forall_ne_some]
  exact forall_congr' fun code => not_congr Failure.exitCode?_eq_some_iff

/-- What the mappers of a container make of a failure together. -/
def Container.mappedCode (container : Container σ) (failure : Failure) (state : σ) : Int :=
  ExitCode.aggregate ((container.mappers state).map fun mapper => .code (mapper failure))

/-- They make a code of it exactly if one of them does. -/
theorem Container.mappedCode_ne_zero_iff :
    container.mappedCode failure state ≠ 0 ↔ ∃ mapper ∈ container.mappers state, mapper failure ≠ 0 := by
  simp [mappedCode, ExitCode.aggregate_eq_zero_iff]

namespace Application

variable {error : RunError}

/-- What the mappers of an active container make of an error goes before what the error requests. -/
theorem failureCode_of_mapped (hactive : container.isActive state = true) (hmapped : container.mappedCode error.failure state ≠ 0) :
    failureCode (some container) error state = container.mappedCode error.failure state := by
  simp only [failureCode, hactive, if_true]
  exact if_pos hmapped

/-- Where no active container makes a code of an error, the code is the one that the error requests. -/
theorem failureCode_of_unmapped {container : Option (Container σ)}
    (h : ∀ made, container = some made → made.isActive state = true → made.mappedCode error.failure state = 0) :
    failureCode container error state = error.failure.exitCode?.getD 0 := by
  cases container with
  | none => rfl
  | some made =>
    cases hactive : made.isActive state with
    | false =>
      simp only [failureCode, hactive]
      rfl
    | true =>
      have hmapped := h made rfl hactive
      simp only [failureCode, hactive, if_true]
      exact if_neg (not_not_intro hmapped)

/-- The exit code of an error is what the mappers of the container make of it together, if there is a container, it is active and they make
something other than zero of it; and that they do exactly if one of them does, so the code is not zero then. In every other case it is the
code that the outermost request in the chain of the error asks for, and zero if there is no request in it. -/
theorem failureCode_of_chain (container : Option (Container σ)) (error : RunError) (state : σ) :
    (∀ made, container = some made → made.isActive state = true → made.mappedCode error.failure state ≠ 0 →
        failureCode container error state = made.mappedCode error.failure state) ∧
      ((∀ made, container = some made → made.isActive state = true → made.mappedCode error.failure state = 0) →
        (∀ code, error.failure.Requests code → failureCode container error state = code) ∧
          ((∀ code, ¬error.failure.Requests code) → failureCode container error state = 0)) ∧
      (∀ made, container = some made → made.isActive state = true →
        (∃ mapper ∈ made.mappers state, mapper error.failure ≠ 0) → failureCode container error state ≠ 0) := by
  refine ⟨?_, fun hunmapped => ⟨fun code hrequests => ?_, fun hnone => ?_⟩, ?_⟩
  · rintro made rfl hactive hmapped
    exact failureCode_of_mapped hactive hmapped
  · rw [failureCode_of_unmapped hunmapped, Failure.exitCode?_eq_some_iff.mpr hrequests]
    rfl
  · rw [failureCode_of_unmapped hunmapped, Failure.exitCode?_eq_none_iff.mpr hnone]
    rfl
  · rintro made rfl hactive hmapper
    have hmapped := Container.mappedCode_ne_zero_iff.mpr hmapper
    rw [failureCode_of_mapped hactive hmapped]
    exact hmapped

/-- A container whose mappers disagree. -/
def disagreeing : Container (List ContainerState) :=
  MemoryContainer.container ⟨id, fun states _ => states⟩ 0 { mappers := [fun _ => 5, fun _ => -5, fun _ => 0] } {}

/-- An error in whose chain two requests are for different codes. -/
def requestingTwice : RunError where
  fault := .runner "r"
  causes := [.plain "a", .exitRequest 7 "b", .exitRequest 9 "c"]

theorem failureCode_of_chain_disagreeing :
    disagreeing.isActive [{ active := true }] = true ∧ disagreeing.mappedCode requestingTwice.failure [{ active := true }] = -5 ∧
      failureCode (some disagreeing) requestingTwice [{ active := true }] = -5 ∧
      (∃ mapper ∈ disagreeing.mappers [{ active := true }], mapper requestingTwice.failure ≠ 0) ∧
      failureCode (some disagreeing) requestingTwice [{ active := true }] ≠ 0 ∧
      disagreeing.isActive [{ }] = false ∧ requestingTwice.failure.Requests 7 ∧
      failureCode (some disagreeing) requestingTwice [{ }] = 7 := by
  have hmapped : disagreeing.mappedCode requestingTwice.failure [{ active := true }] = -5 := by decide
  have hmapper : ∃ mapper ∈ disagreeing.mappers [{ active := true }], mapper requestingTwice.failure ≠ 0 :=
    ⟨fun _ => 5, List.mem_cons_self, by decide⟩
  have hrequests : requestingTwice.failure.Requests 7 :=
    ⟨[.run (.runner "r"), .plain "a"], "b", [.exitRequest 9 "c"], rfl, by simp⟩
  obtain ⟨hcode, -, hnonzero⟩ := failureCode_of_chain (some disagreeing) requestingTwice [{ active := true }]
  obtain ⟨-, hunmapped, -⟩ := failureCode_of_chain (some disagreeing) requestingTwice [{ }]
  refine ⟨rfl, hmapped, ?_, hmapper, hnonzero disagreeing rfl rfl hmapper, rfl, hrequests, ?_⟩
  · rw [hcode disagreeing rfl rfl (by rw [hmapped]; decide), hmapped]
  · refine (hunmapped fun made hmade hactive => ?_).1 7 hrequests
    obtain rfl : disagreeing = made := Option.some.inj hmade
    nomatch hactive

end Application

end Failures

/-! ## The end of an application -/

/-- What a contributor answers as a contribution. -/
def Contribution.ofAnswer : Except Failure Int → Contribution
  | .ok value => .code value
  | .error failure => .failed failure

namespace ExitCode

/-- What contributors say, asked one after the other. -/
def said : List (ExitCodeContributor σ) → σ → List Contribution
  | [], _ => []
  | contributor :: rest, state => .ofAnswer (contributor state).1 :: said rest (contributor state).2.1

/-- The calls by which contributors are asked. -/
def consultations (contributors : List (ExitCodeContributor σ)) : List (Deed σ) :=
  contributors.map (Deed.ofAction .consulted)

/-- The call by which a code is published, unless it is zero. -/
def publication (container : Container σ) (code : Int) : List (Deed σ) :=
  if code = 0 then [] else [Deed.ofAction (.published code) (container.publish code)]

/-- Closes the container of an application that ends with a code. -/
def closeWith (container : Container σ) (code : Int) : Running σ Int := do
  match ← Running.perform .closed container.close with
  | .ok () => return code
  | .error failure =>
    Running.tell
      { level := .error, target := LogTarget.exit, message := "failed to close the application container"
        fields := [("error", .text failure.message)] }
    return if code = 0 then 1 else code

/-- Publishes a code, unless it is zero. -/
def publishCode (container : Container σ) (code : Int) : Running σ Unit := do
  if code ≠ 0 then Running.perform (.published code) (container.publish code)

section Ending

variable {container : Container σ} {contributors : List (ExitCodeContributor σ)} {code : Int}

/-- Each contributor is consulted once. -/
theorem steps_consultations : Deed.steps (consultations contributors) = List.replicate contributors.length .consulted := by
  simp [Deed.steps, consultations, Deed.ofAction, Function.comp_def]

/-- Only a code other than zero is published. -/
theorem steps_publication : Deed.steps (publication container code) = if code ≠ 0 then [.published code] else [] := by
  by_cases hcode : code = 0
  · simp [publication, hcode]
  · simp [publication, hcode, Deed.steps, Deed.ofAction]

/-- An application ends in three parts. -/
theorem exit_eq (container : Container σ) (contributors : List (ExitCodeContributor σ)) :
    exit container contributors = (do
      let own ← Running.look container.contributors
      let code ← consult 0 (own ++ contributors)
      publishCode container code
      closeWith container code) := by
  rw [exit]
  refine congrArg (Running.look container.contributors >>= ·) (funext fun own => ?_)
  refine congrArg (consult 0 (own ++ contributors) >>= ·) (funext fun code => ?_)
  by_cases hcode : code = 0
  · subst hcode
    rfl
  · rw [if_pos hcode, publishCode, if_pos hcode]
    rfl

/-- The contributors are asked in order, each answer acting on the code made so far. -/
theorem consult_answer (current : Int) (contributors : List (ExitCodeContributor σ)) (world : World σ) :
    ((consult current contributors).run world).1 = (said contributors world.state).foldl after current := by
  induction contributors generalizing current world with
  | nil => rfl
  | cons contributor rest ih =>
    rw [consult, Running.run_bind, Running.run_perform, said]
    rcases contributor world.state with ⟨failure | value, state, told⟩
    · exact ih _ _
    · exact ih _ _

/-- Each contributor is asked once, in order. -/
theorem does_consult (current : Int) (contributors : List (ExitCodeContributor σ)) :
    (consult current contributors).Does (consultations contributors) := by
  induction contributors generalizing current with
  | nil => exact .pure current
  | cons contributor rest ih =>
    refine (Running.Does.perform _ _).bind fun answer => ?_
    cases answer with
    | ok value => exact ih _
    | error failure => exact (Running.Does.tell _).bind fun _ => ih _

/-- Publishing a code does what is listed for it and nothing else. -/
theorem does_publishCode (container : Container σ) (code : Int) :
    (publishCode container code).Does (publication container code) := by
  by_cases hcode : code = 0
  · subst hcode
    exact .pure ()
  · rw [publishCode, publication, if_pos hcode, if_neg hcode]
    exact .perform _ _

/-- Closing a container is one deed. -/
theorem does_closeWith (container : Container σ) (code : Int) :
    (closeWith container code).Does [Deed.ofAction .closed container.close] := by
  change (closeWith container code).Does ([Deed.ofAction .closed container.close] ++ [])
  refine (Running.Does.perform _ _).bind fun answer => ?_
  cases answer with
  | ok => exact .pure code
  | error failure => exact (Running.Does.tell _).bind fun _ => .pure _

/-- A container that closes keeps the code, and one that does not makes a code of zero one. -/
theorem closeWith_answer (world : World σ) : ((closeWith container code).run world).1 =
    match (container.close world.state).1 with
    | .ok () => code
    | .error _ => if code = 0 then 1 else code := by
  rw [closeWith, Running.run_bind, Running.run_perform]
  rcases container.close world.state with ⟨failure | _, state, told⟩ <;> rfl

/-- The contributors of the container are asked and then the others, the code is published unless it is zero, and the container is
closed; the answer is the code, or one if that is zero and the container does not close. -/
theorem run_exit (container : Container σ) (contributors : List (ExitCodeContributor σ)) (world : World σ) :
    let asked := container.contributors world.state ++ contributors
    let code := aggregate (said asked world.state)
    let deeds := consultations asked ++ publication container code
    world.Leads (Deed.steps (deeds ++ [Deed.ofAction .closed container.close]))
        (Deed.leave (deeds ++ [Deed.ofAction .closed container.close]) world.state) ((exit container contributors).run world).2 ∧
      ((exit container contributors).run world).1 =
        match (container.close (Deed.leave deeds world.state)).1 with
        | .ok () => code
        | .error _ => if code = 0 then 1 else code := by
  intro asked code deeds
  have hconsult := does_consult 0 asked world
  have hcode : ((consult 0 asked).run world).1 = code := consult_answer 0 asked world
  rw [exit_eq, Running.run_bind, Running.run_look, Running.run_bind, hcode, Running.run_bind]
  generalize ((consult 0 asked).run world).2 = consulted at hconsult ⊢
  have hpublish := hconsult.trans (does_publishCode container code consulted)
  rw [hconsult.state_eq, ← Deed.leave_append, ← Deed.steps_append] at hpublish
  change world.Leads (Deed.steps deeds) (Deed.leave deeds world.state) _ at hpublish
  generalize ((publishCode container code).run consulted).2 = published at hpublish ⊢
  have hclose := hpublish.trans (does_closeWith container code published)
  rw [hpublish.state_eq, ← Deed.leave_append, ← Deed.steps_append] at hclose
  refine ⟨hclose, ?_⟩
  rw [closeWith_answer, hpublish.state_eq]

end Ending

/-- An application ends by asking the contributors of its container and then the others, each once and in order, by publishing the code
that they make together, once, unless it is zero, and by closing the container, once. It answers with that code if it is not zero, and
otherwise with zero or one, as the container closes or not. So the answer is zero exactly if everyone said zero, no one failed and the
container closed. -/
theorem outcome_of_exit (container : Container σ) (contributors : List (ExitCodeContributor σ)) (world : World σ) :
    let asked := container.contributors world.state ++ contributors
    let code := aggregate (said asked world.state)
    let closed := container.close (Deed.leave (consultations asked ++ publication container code) world.state)
    let (answer, after) := (exit container contributors).run world
    world.Leads (List.replicate asked.length .consulted ++ (if code ≠ 0 then [.published code] else []) ++ [.closed]) closed.2.1 after ∧
      answer = (if code ≠ 0 then code else match closed.1 with | .ok () => 0 | .error _ => 1) ∧
      (answer = 0 ↔ (∀ contribution ∈ said asked world.state, contribution = .code 0) ∧ closed.1 = .ok ()) := by
  intro asked code closed
  obtain ⟨hleads, hanswer⟩ := run_exit container contributors world
  generalize (exit container contributors).run world = ended at hleads hanswer ⊢
  obtain ⟨answer, after⟩ := ended
  have hzero : code = 0 ↔ ∀ contribution ∈ said asked world.state, contribution = .code 0 := aggregate_eq_zero_iff
  have hclosed : answer = if code ≠ 0 then code else match closed.1 with | .ok () => 0 | .error _ => 1 := by
    change answer = (match closed.1 with | .ok () => code | .error _ => if code = 0 then 1 else code) at hanswer
    rw [hanswer]
    by_cases hcode : code = 0
    · rw [if_neg (not_not_intro hcode), if_pos hcode, hcode]
    · rw [if_pos hcode, if_neg hcode]
      cases closed.1 <;> rfl
  rw [Deed.steps_append, Deed.steps_append, steps_consultations, steps_publication, Deed.leave_append] at hleads
  refine ⟨hleads, hclosed, ?_⟩
  rw [hclosed, ← hzero]
  by_cases hcode : code = 0
  · cases closed.1 with
    | ok => simp [hcode]
    | error failure => simp [hcode]
  · simp [hcode]

end ExitCode

end Ignition
