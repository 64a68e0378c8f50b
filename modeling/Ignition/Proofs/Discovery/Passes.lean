import Ignition.Proofs.Discovery.Requests
import Ignition.Proofs.Discovery.Steps

/-!
# Which passes a search makes

The invariant of a search (`Orderly`): only the active profiles of its environment have changed; the passes begun are the one for no
profile, those of the profiles that count as processed, and the current one, no profile twice; and whatever waits or has had its pass is
active or one of the profiles that stand in. A file may ask for the profile whose pass is going on, since this one neither waits nor
counts as processed; it then waits once more, and is skipped when its turn comes. At the end of a search this makes its passes
(`passes_of_run`).
-/

namespace Ignition

/-! ## Histories -/

namespace Milestone

variable (history : List Milestone)

/-- A pass is one more pass. -/
@[simp] theorem passes_append_pass (profile : Option String) :
    passes (history ++ [.pass profile]) = passes history ++ [profile] := by
  simp [passes]

/-- A layer is no pass. -/
@[simp] theorem passes_append_layer (layer : AskingLayer) : passes (history ++ [.layer layer]) = passes history := by
  simp [passes]

/-- A pass asks for nothing. -/
@[simp] theorem asking_append_pass (profile : Option String) : asking (history ++ [.pass profile]) = asking history := by
  simp [asking]

/-- A layer is one more that asks. -/
@[simp] theorem asking_append_layer (layer : AskingLayer) :
    asking (history ++ [.layer layer]) = asking history ++ [layer] := by
  simp [asking]

/-- A pass is no layer. -/
@[simp] theorem layers_append_pass (profile : Option String) : layers (history ++ [.pass profile]) = layers history := by
  simp [layers]

/-- A layer is one more layer. -/
@[simp] theorem layers_append_layer (layer : AskingLayer) :
    layers (history ++ [.layer layer]) = layers history ++ [layer.layer] := by
  simp [layers]

end Milestone

namespace Discovery

open Progress

/-! ## The invariant -/

/-- The profiles that have had their pass in a search, and the one whose pass is going on. -/
def entered (current : Option String) (p : Progress) : List String :=
  p.processed.names ++ current.toList

/-- How a search in an environment stands within the pass for a profile, or between two passes. -/
structure Orderly (env : Environment) (current : Option String) (p : Progress) : Prop where
  /-- Of the environment only the active profiles have changed. -/
  environment : p.environment = { env with active := p.environment.active }
  /-- The passes begun are that for no profile and those of the profiles entered. -/
  passes : Milestone.passes p.history = none :: (entered current p).map some
  /-- No profile is entered twice. -/
  nodup : (entered current p).Nodup
  /-- The profiles entered are active or stand in. -/
  entered_mem : ∀ name ∈ entered current p, name ∈ p.environment.active ∨ name ∈ env.defaults
  /-- Only profiles wait that are active or stand in. -/
  waiting_mem : ∀ pass ∈ p.waiting,
    ∃ profile, pass = some profile ∧ (profile.name ∈ p.environment.active ∨ profile.name ∈ env.defaults)

section Orderly

variable {env : Environment} {plan : SearchPlan} {resources : Resources} {current : Option String} {p q : Progress}

/-- Taking a layer keeps a search orderly: what it lets wait it makes active. -/
theorem Orderly.accept {layer : Layer} (h : Orderly env current p) (haccept : p.accept layer = .ok q) :
    Orderly env current q := by
  obtain ⟨active, included, -, -, -, -, rfl⟩ := accept_eq_ok h.environment haccept
  have hentered : entered current (p.take active included layer) = entered current p := by
    rw [entered, processed_take, entered]
  have hmono : ∀ name, name ∈ p.environment.active ∨ name ∈ env.defaults →
      name ∈ (p.take active included layer).environment.active ∨ name ∈ env.defaults := fun name =>
    Or.imp_left fun hn => mem_active_take.mpr (Or.inl (Or.inl hn))
  constructor
  · rw [environment_take, h.environment]
  · rw [history_take, Milestone.passes_append_layer, hentered, h.passes]
  · rw [hentered]
    exact h.nodup
  · rw [hentered]
    exact fun name hn => hmono name (h.entered_mem name hn)
  · intro pass hpass
    rcases mem_waiting_take.mp hpass with ⟨profile, hp, -, rfl⟩ | hpass
    · exact ⟨profile, rfl, Or.inl (mem_active_take.mpr (Or.inr (List.mem_map_of_mem hp)))⟩
    · rcases granted_or_ignored p active with ⟨hne, ha⟩ | hignored
      · obtain ⟨-, ⟨profile, hp, -, rfl⟩ | hpass⟩ := (mem_waiting_request_of_granted hne ha).mp hpass
        · exact ⟨profile, rfl, Or.inl (mem_active_take.mpr (Or.inl (Or.inr ⟨List.mem_map_of_mem hp, ha⟩)))⟩
        · obtain ⟨profile, rfl, hp⟩ := h.waiting_mem pass hpass
          exact ⟨profile, rfl, hmono _ hp⟩
      · rw [waiting_request_of_ignored hignored] at hpass
        obtain ⟨profile, rfl, hp⟩ := h.waiting_mem pass hpass
        exact ⟨profile, rfl, hmono _ hp⟩

/-- A search stays orderly. -/
theorem orderly_kept (env : Environment) (plan : SearchPlan) (resources : Resources) :
    Kept plan resources (Orderly env) where
  waiting h hnone := by
    obtain ⟨profile, he, -⟩ := h.waiting_mem none hnone
    cases he
  move hmove h := by
    cases hmove with
    | noted => exact ⟨h.environment, h.passes, h.nodup, h.entered_mem, h.waiting_mem⟩
    | lookedUp => exact ⟨h.environment, h.passes, h.nodup, h.entered_mem, h.waiting_mem⟩
    | accepted _ haccept => exact h.accept haccept
  skip hw _ h :=
    ⟨h.environment, h.passes, h.nodup, h.entered_mem, fun pass hp => h.waiting_mem pass (hw ▸ List.mem_cons_of_mem _ hp)⟩
  begin {p profile rest} hw hnew h := by
    have hentered : entered (some profile.name) (beginning p profile rest) = entered none p ++ [profile.name] := by
      simp [entered, beginning, reach, Progress.note]
    have hwait : profile.name ∈ p.environment.active ∨ profile.name ∈ env.defaults := by
      obtain ⟨_, he, hp⟩ := h.waiting_mem (some profile) (hw ▸ List.mem_cons_self)
      cases he
      exact hp
    constructor
    · exact h.environment
    · rw [hentered, List.map_append, ← List.cons_append, ← h.passes]
      exact Milestone.passes_append_pass _ _
    · rw [hentered, List.nodup_append]
      refine ⟨h.nodup, List.nodup_singleton _, ?_⟩
      intro name hn other ho
      rw [List.mem_singleton] at ho
      subst ho
      rintro rfl
      simp only [entered, Option.toList_none, List.append_nil] at hn
      exact ProfileSet.contains_eq_false_iff.mp hnew hn
    · rw [hentered]
      intro name hn
      rcases List.mem_append.mp hn with hn | hn
      · exact h.entered_mem name hn
      · rw [List.mem_singleton.mp hn]
        exact hwait
    · exact fun pass hp => h.waiting_mem pass (hw ▸ List.mem_cons_of_mem _ hp)
  finish {p profile} h := by
    have hnew : profile.name ∉ p.processed.names := fun hn =>
      List.disjoint_of_nodup_append h.nodup hn (by simp)
    have hentered : entered none { p with processed := p.processed.insert profile } = entered (some profile.name) p := by
      simp [entered, ProfileSet.names_insert_of_notMem hnew]
    exact ⟨h.environment, by rw [hentered]; exact h.passes, by rw [hentered]; exact h.nodup,
      by rw [hentered]; exact h.entered_mem, h.waiting_mem⟩

/-- A search begins with the pass for no profile, and is orderly then. -/
theorem orderly_start (h : Progress.start env = .ok p) :
    ∃ rest, p.waiting = none :: rest ∧ Orderly env none (({ p with waiting := rest } : Progress).reach (.pass none)) := by
  obtain ⟨included, declared, -, -, hincluded, hdeclared, rfl⟩ := start_eq_ok h
  refine ⟨_, waiting_seed, ?_⟩
  rw [seed_eq]
  constructor
  · exact environment_asked
  · simp only [reach, history_asked, entered, processed_asked]
    rfl
  · simp only [reach, entered, processed_asked]
    exact List.nodup_nil
  · simp only [reach, entered, processed_asked]
    exact fun name hn => absurd hn List.not_mem_nil
  · intro pass hpass
    simp only [reach] at hpass
    split at hpass
    · obtain ⟨name, hn, rfl⟩ := List.mem_map.mp hpass
      exact ⟨_, rfl, Or.inr hn⟩
    · obtain ⟨profile, rfl, -, hactive⟩ := mem_waiting_asked hincluded hdeclared hpass
      exact ⟨profile, rfl, Or.inl hactive⟩

/-- At the end of a search that came to its end, it is still orderly, and no pass is going on. -/
theorem Completed.orderly {discovery : Discovery} {start finish : Progress}
    (h : Completed discovery resources env plan start finish) : Orderly env none finish :=
  h.kept (orderly_kept env plan resources) (orderly_start h.start_eq)

end Orderly

/-! ## At most one pass for each profile -/

/-- A search that came to its end began one pass for no profile, which was the first, and then one for each profile processed, in this
order; no profile is processed twice, and each is active at the end or one of those that stand in. -/
theorem passes_of_run (discovery : Discovery) (resources : Resources) (env : Environment) (found : Discovered)
    (h : (discovery.run resources env).result = .ok found) :
    Milestone.passes (discovery.run resources env).history = none :: found.processed.map some ∧
      found.processed.Nodup ∧
      ∀ name ∈ found.processed, name ∈ (discovery.run resources env).environment.active ∨ name ∈ env.defaults := by
  obtain ⟨plan, start, finish, hrun⟩ := run_eq_ok h
  obtain ⟨-, hfound⟩ := hrun.found_eq h
  have hentered : entered none finish = found.processed := by simp [entered, hfound]
  have horderly := hrun.orderly
  have hpasses := horderly.passes
  have hnodup := horderly.nodup
  have hmem := horderly.entered_mem
  rw [hentered] at hpasses hnodup hmem
  rw [hrun.active, hrun.history]
  exact ⟨hpasses, hnodup, hmem⟩

/-- A search of one directory. -/
def searchOfRoot : Discovery := { locations := ["classpath:/"] }

/-- Files that include each other's profiles, and one its own. -/
def includingFiles : Resources :=
  Resources.ofList [("classpath:/application.properties", "liftoff.profiles.include=a,b"),
    ("classpath:/application-a.properties", "liftoff.profiles.include=b,a"),
    ("classpath:/application-b.properties", "liftoff.profiles.include=a")]

/-- Files that include each other have one pass each. -/
theorem passes_of_run_includingFiles :
    let found : Discovered :=
      { loaded := ["applicationConfig: [classpath:/application.properties]",
          "applicationConfig: [classpath:/application-a.properties]",
          "applicationConfig: [classpath:/application-b.properties]"]
        processed := ["a", "b", "default"] }
    (searchOfRoot.run includingFiles {}).result = .ok found ∧
      Milestone.passes (searchOfRoot.run includingFiles {}).history = none :: found.processed.map some ∧
      found.processed.Nodup ∧
      ∀ name ∈ found.processed,
        name ∈ (searchOfRoot.run includingFiles {}).environment.active ∨ name ∈ ({} : Environment).defaults := by
  intro found
  have hrun : (searchOfRoot.run includingFiles {}).result = .ok found := by decide +kernel
  exact ⟨hrun, passes_of_run _ _ _ _ hrun⟩

end Discovery

end Ignition
