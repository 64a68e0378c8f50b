import Ignition.Failure.Analysis

/-!
# Which diagnosis a failure gets

The analyzers of the library look at the chain of a failure and at nothing else. Two of them look for a configuration error and share
the kinds of it between them: one speaks of files (`ConfigFault.IsAboutFile`), the other of everything else, so no kind is left over
and none is taken twice (`Analyzer.remedy?_eq_none_iff`). Both look at the outermost error only, and say of a failure what they say of
that error by itself. The third looks for a port that is taken, and is heard only where there is no configuration error in the chain
(`Analyzer.diagnosis_of_chain`).
-/

namespace Ignition

/-! ## The outermost fault of a kind -/

/-- A fault is one of the configuration or it is none. -/
theorem Fault.config_or_not (fault : Fault) : (∃ other, fault = .config other) ∨ ∀ other, fault ≠ .config other := by
  cases fault <;> simp

/-- The port that a fault is about, if it is about one. -/
def Fault.port? : Fault → Option Nat
  | .portInUse port => some port
  | _ => none

/-- A fault is about a port exactly if this one is in use. -/
theorem Fault.port?_eq_some_iff {fault : Fault} {port : Nat} : fault.port? = some port ↔ fault = .portInUse port := by
  cases fault <;> simp [port?]

/-- Any other fault is about none. -/
theorem Fault.port?_eq_none_iff {fault : Fault} : fault.port? = none ↔ ∀ port, fault ≠ .portInUse port := by
  cases fault <;> simp [port?]

namespace Failure

variable {failure : Failure} {fault next : Fault} {causes : List Fault} {error : ConfigError} {port : Nat}

/-- An error is the outermost configuration error in the chain of a failure. -/
def HasOutermostConfig (failure : Failure) (error : ConfigError) : Prop :=
  ∃ before, failure.faults = before ++ error.failure.faults ∧ ∀ fault ∈ before, ∀ other, fault ≠ .config other

/-- A port is that of the outermost fault about a port in the chain of a failure. -/
def HasOutermostPort (failure : Failure) (port : Nat) : Prop :=
  ∃ before causes, failure.faults = before ++ .portInUse port :: causes ∧ ∀ fault ∈ before, ∀ other, fault ≠ .portInUse other

/-- A failure of one other fault has no configuration error. -/
theorem config?_single (h : ∀ other, fault ≠ .config other) : config? ⟨fault, []⟩ = none := by
  cases fault with
  | config other => exact absurd rfl (h other)
  | _ => rfl

/-- A fault of another kind is passed over. -/
theorem config?_cons (h : ∀ other, fault ≠ .config other) : config? ⟨fault, next :: causes⟩ = config? ⟨next, causes⟩ := by
  cases fault with
  | config other => exact absurd rfl (h other)
  | _ => rfl

/-- A configuration error is the outermost one of itself. -/
theorem hasOutermostConfig_self (error : ConfigError) : error.failure.HasOutermostConfig error :=
  ⟨[], rfl, nofun⟩

/-- Behind another fault the outermost configuration error stays the outermost one. -/
theorem HasOutermostConfig.cons (hother : ∀ other, fault ≠ .config other) (h : HasOutermostConfig ⟨next, causes⟩ error) :
    HasOutermostConfig ⟨fault, next :: causes⟩ error := by
  obtain ⟨before, heq, hbefore⟩ := h
  refine ⟨fault :: before, congrArg (fault :: ·) heq, ?_⟩
  exact List.forall_mem_cons.mpr ⟨hother, hbefore⟩

/-- The outermost configuration error is among the faults. -/
theorem HasOutermostConfig.mem (h : failure.HasOutermostConfig error) : .config error.fault ∈ failure.faults := by
  obtain ⟨before, heq, -⟩ := h
  rw [heq]
  exact List.mem_append_right before List.mem_cons_self

/-- The configuration error that is found is the outermost one, and one is found if there is one. -/
theorem config?_cases (failure : Failure) :
    (failure.config? = none ∧ ∀ other, .config other ∉ failure.faults) ∨
      ∃ error, failure.config? = some error ∧ failure.HasOutermostConfig error := by
  obtain ⟨fault, causes⟩ := failure
  induction causes generalizing fault with
  | nil =>
    rcases fault.config_or_not with ⟨other, rfl⟩ | hfault
    · exact .inr ⟨⟨other, []⟩, rfl, hasOutermostConfig_self ⟨other, []⟩⟩
    · exact .inl ⟨config?_single hfault, fun other hmem => hfault other (List.mem_singleton.mp hmem).symm⟩
  | cons next causes ih =>
    rcases fault.config_or_not with ⟨other, rfl⟩ | hfault
    · exact .inr ⟨⟨other, next :: causes⟩, rfl, hasOutermostConfig_self ⟨other, next :: causes⟩⟩
    · rw [config?_cons hfault]
      rcases ih next with ⟨hnone, hcauses⟩ | ⟨error, hsome, houtermost⟩
      · refine .inl ⟨hnone, fun other hmem => ?_⟩
        exact (List.mem_cons.mp hmem).elim (fun heq => hfault other heq.symm) (hcauses other)
      · exact .inr ⟨error, hsome, houtermost.cons hfault⟩

/-- The port of a failure is that of the outermost fault about one. -/
theorem port?_eq_some_iff : failure.port? = some port ↔ failure.HasOutermostPort port := by
  have hfirst : failure.port? = failure.faults.findSome? Fault.port? := rfl
  rw [hfirst, List.findSome?_eq_some_iff]
  constructor
  · rintro ⟨before, fault, causes, heq, hfault, hbefore⟩
    obtain rfl := Fault.port?_eq_some_iff.mp hfault
    exact ⟨before, causes, heq, fun other hother => Fault.port?_eq_none_iff.mp (hbefore other hother)⟩
  · rintro ⟨before, causes, heq, hbefore⟩
    exact ⟨before, _, causes, heq, rfl, fun other hother => Fault.port?_eq_none_iff.mpr (hbefore other hother)⟩

/-- A failure without such a fault has none. -/
theorem port?_eq_none_iff : failure.port? = none ↔ ∀ port, .portInUse port ∉ failure.faults := by
  have hfirst : failure.port? = failure.faults.findSome? Fault.port? := rfl
  rw [hfirst, List.findSome?_eq_none_iff]
  exact ⟨fun h port hmem => Fault.port?_eq_none_iff.mp (h _ hmem) port rfl,
    fun h fault hmem => Fault.port?_eq_none_iff.mpr fun port heq => h port (heq ▸ hmem)⟩

end Failure

/-! ## What each analyzer says -/

/-- A fault of a configuration is that a file cannot be read or makes no layer. -/
def ConfigFault.IsAboutFile (fault : ConfigFault) : Prop :=
  (∃ location, fault = .load location) ∨ ∃ location, fault = .read location

namespace Analyzer

variable {failure : Failure} {fault : ConfigFault} {error : ConfigError} {port : Nat}

/-- There is a remedy for everything but files. -/
theorem remedy?_eq_none_iff : remedy? fault = none ↔ fault.IsAboutFile := by
  cases fault with
  | placeholder error => cases error <;> simp [remedy?, ConfigFault.IsAboutFile]
  | _ => simp [remedy?, ConfigFault.IsAboutFile]

/-- Of a failure the first two analyzers say what they say of its outermost configuration error by itself. -/
theorem of_config?_eq_some (h : failure.config? = some error) :
    configFile failure = configFile error.failure ∧ configBinding failure = configBinding error.failure := by
  rw [configFile, configBinding, h]
  exact ⟨rfl, rfl⟩

/-- Without a configuration error neither of its analyzers has anything to say. -/
theorem of_config?_eq_none (h : failure.config? = none) : configFile failure = none ∧ configBinding failure = none := by
  rw [configFile, configBinding, h]
  exact ⟨rfl, rfl⟩

/-- Of an error about a file the first analyzer speaks, and names the error as the cause. -/
theorem exists_configFile (h : error.fault.IsAboutFile) :
    ∃ analysis, configFile error.failure = some analysis ∧ analysis.cause = error.message := by
  obtain ⟨fault, causes⟩ := error
  obtain ⟨location, rfl⟩ | ⟨location, rfl⟩ := h <;> exact ⟨_, rfl, rfl⟩

/-- Nor has the one for files if the error is about something else. -/
theorem configFile_eq_none (h : ¬error.fault.IsAboutFile) : configFile error.failure = none := by
  obtain ⟨fault, causes⟩ := error
  cases fault with
  | load location => exact absurd (.inl ⟨location, rfl⟩) h
  | read location => exact absurd (.inr ⟨location, rfl⟩) h
  | _ => rfl

/-- Of any other configuration error the second analyzer speaks, and names the error as the cause. -/
theorem exists_configBinding (h : ¬error.fault.IsAboutFile) :
    ∃ analysis, configBinding error.failure = some analysis ∧ analysis.cause = error.message := by
  obtain ⟨action, haction⟩ := Option.ne_none_iff_exists'.mp (mt remedy?_eq_none_iff.mp h)
  have hfound : error.failure.config? = some error := rfl
  rw [configBinding, hfound, Option.bind_some, haction]
  exact ⟨_, rfl, rfl⟩

/-- The first analyzer with something to say is heard. -/
theorem first?_standard (failure : Failure) :
    first? standard failure = (configFile failure).or ((configBinding failure).or (portInUse failure)) := by
  simp only [first?, standard, List.findSome?_cons, List.findSome?_nil]
  cases configFile failure <;> cases configBinding failure <;> cases portInUse failure <;> rfl

/-- If there is a configuration error, the outermost one is spoken of: by the first analyzer if it is about a file, and by the second
one otherwise. -/
theorem first?_of_config (h : failure.config? = some error) :
    ∃ analysis, first? standard failure = some analysis ∧ analysis.cause = error.message ∧
      (error.fault.IsAboutFile → configFile failure = some analysis ∧ configFile error.failure = some analysis) ∧
      (¬error.fault.IsAboutFile → configFile failure = none ∧ configBinding failure = some analysis ∧
        configBinding error.failure = some analysis) := by
  obtain ⟨hfile, hbinding⟩ := of_config?_eq_some h
  rw [first?_standard, hfile, hbinding]
  by_cases habout : error.fault.IsAboutFile
  · obtain ⟨analysis, hanalysis, hcause⟩ := exists_configFile habout
    rw [hanalysis]
    exact ⟨analysis, rfl, hcause, fun _ => ⟨rfl, rfl⟩, fun hnot => absurd habout hnot⟩
  · obtain ⟨analysis, hanalysis, hcause⟩ := exists_configBinding habout
    rw [configFile_eq_none habout, hanalysis]
    exact ⟨analysis, rfl, hcause, fun hfile => absurd hfile habout, fun _ => ⟨rfl, rfl, rfl⟩⟩

/-- The diagnosis of a failure. There is none exactly if no link of the chain is a configuration error or about a port that is taken. If
there is a configuration error, the diagnosis is about the outermost one, wherever a port may stand: it names that error as the cause
and is what one analyzer says of that error by itself, the one for files if the error is that a file cannot be read or makes no layer,
and the one for all else otherwise. If there is none, the diagnosis is about the outermost port. -/
theorem diagnosis_of_chain (failure : Failure) :
    (first? standard failure = none ↔
      ∀ fault ∈ failure.faults, (∀ other, fault ≠ .config other) ∧ ∀ port, fault ≠ .portInUse port) ∧
      ((∃ other, .config other ∈ failure.faults) → ∃ error analysis, failure.HasOutermostConfig error ∧
        first? standard failure = some analysis ∧ analysis.cause = error.message ∧
        (error.fault.IsAboutFile → configFile failure = some analysis ∧ configFile error.failure = some analysis) ∧
        (¬error.fault.IsAboutFile → configFile failure = none ∧ configBinding failure = some analysis ∧
          configBinding error.failure = some analysis)) ∧
      ((∀ other, .config other ∉ failure.faults) → (∃ port, .portInUse port ∈ failure.faults) →
        ∃ port analysis, failure.HasOutermostPort port ∧ first? standard failure = some analysis ∧
          analysis.cause = (Fault.portInUse port).text "" ∧ configFile failure = none ∧ configBinding failure = none ∧
          portInUse failure = some analysis ∧ portInUse ⟨.portInUse port, []⟩ = some analysis) := by
  rcases failure.config?_cases with ⟨hnone, hfaults⟩ | ⟨error, hsome, houtermost⟩
  · obtain ⟨hfile, hbinding⟩ := of_config?_eq_none hnone
    have hfirst : first? standard failure = portInUse failure := by
      rw [first?_standard, hfile, hbinding]
      rfl
    refine ⟨?_, fun ⟨other, hmem⟩ => absurd hmem (hfaults other), fun _ ⟨port, hmem⟩ => ?_⟩
    · rw [hfirst, portInUse, Option.map_eq_none_iff, Failure.port?_eq_none_iff]
      exact ⟨fun h fault hmem => ⟨fun other heq => hfaults other (heq ▸ hmem), fun port heq => h port (heq ▸ hmem)⟩,
        fun h port hmem => (h _ hmem).2 port rfl⟩
    · obtain ⟨outermost, hport⟩ := Option.ne_none_iff_exists'.mp fun hno => Failure.port?_eq_none_iff.mp hno port hmem
      refine ⟨outermost, _, Failure.port?_eq_some_iff.mp hport, hfirst.trans ?_, rfl, hfile, hbinding, ?_, rfl⟩ <;>
        rw [portInUse, hport] <;> rfl
  · obtain ⟨analysis, hfirst, hrest⟩ := first?_of_config hsome
    refine ⟨iff_of_false (by simp [hfirst]) fun h => (h _ houtermost.mem).1 _ rfl, fun _ => ⟨error, analysis, houtermost, hfirst, hrest⟩,
      fun hno => absurd houtermost.mem (hno _)⟩

/-- A runner that meets a port that is taken because a file cannot be read. -/
def portAheadOfFile : Failure where
  fault := .run (.runner "http")
  causes := [.portInUse 8080, .config (.read "file:./ports.yml"), .resource (.unsupported "file:./ports.yml")]

/-- The file is spoken of, and not the port ahead of it. -/
theorem diagnosis_of_chain_portAheadOfFile :
    (∃ other, .config other ∈ portAheadOfFile.faults) ∧ (∃ port, .portInUse port ∈ portAheadOfFile.faults) ∧
      ∃ error analysis, portAheadOfFile.HasOutermostConfig error ∧ first? standard portAheadOfFile = some analysis ∧
        analysis.cause = error.message ∧
        error.message = "failed to read configuration file from location 'file:./ports.yml'" := by
  have hconfig : ∃ other, .config other ∈ portAheadOfFile.faults := ⟨.read "file:./ports.yml", by decide⟩
  obtain ⟨error, analysis, houtermost, hfirst, hcause, -⟩ := (diagnosis_of_chain portAheadOfFile).2.1 hconfig
  have hspoken : (first? standard portAheadOfFile).map (·.cause) =
      some "failed to read configuration file from location 'file:./ports.yml'" := rfl
  rw [hfirst] at hspoken
  exact ⟨hconfig, ⟨8080, by decide⟩, error, analysis, houtermost, hfirst, hcause, hcause.symm.trans (Option.some.inj hspoken)⟩

end Analyzer

end Ignition
