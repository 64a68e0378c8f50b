import Ignition.Proofs.Discovery.Activation

/-!
# What becomes of the default profiles

The default profiles only stand in. In an environment that asks for no profile they all have their passes, unless a file activates
profiles; from the first such file on, those whose pass has not begun have it exactly if this file or a later one includes them. In an
environment that asks for some profile, a default profile has no pass on its own account: whatever has one was active before, or is named
in a list of the environment or of a layer that was read (`default_fate_of_run`).
-/

namespace Ignition

namespace Discovery

open Progress

/-! ## The first layer that activates -/

section First

variable {env : Environment} {earlier later earlier' later' history : List Milestone} {layer layer' : AskingLayer} {name : String}

/-- A layer is the first one that activates any profile, behind some milestones. -/
def FirstToActivate (earlier : List Milestone) (layer : AskingLayer) : Prop :=
  (∀ other ∈ Milestone.asking earlier, other.activated = []) ∧ layer.activated ≠ []

/-- Only one layer of a history is the first one that activates any profile. -/
theorem FirstToActivate.unique (h : FirstToActivate earlier layer) (h' : FirstToActivate earlier' layer')
    (he : earlier ++ .layer layer :: later = earlier' ++ .layer layer' :: later') :
    earlier = earlier' ∧ layer = layer' ∧ later = later' := by
  have hbehind : ∀ {earlier other : List Milestone} {layer : AskingLayer}, .layer layer ∈ other →
      layer ∈ Milestone.asking (earlier ++ other) := by
    intro earlier other layer hl
    exact List.mem_filterMap.mpr ⟨_, List.mem_append_right _ hl, rfl⟩
  rcases List.append_eq_append_iff.mp he with ⟨between, rfl, hrest⟩ | ⟨between, rfl, hrest⟩
  · cases between with
    | nil =>
      obtain ⟨hlayer, hlater⟩ := List.cons.inj hrest
      exact ⟨(List.append_nil _).symm, Milestone.layer.inj hlayer, hlater⟩
    | cons first between =>
      obtain ⟨rfl, -⟩ := List.cons.inj hrest
      exact absurd (h'.1 layer (hbehind List.mem_cons_self)) h.2
  · cases between with
    | nil =>
      obtain ⟨hlayer, hlater⟩ := List.cons.inj hrest
      exact ⟨List.append_nil _, (Milestone.layer.inj hlayer).symm, hlater.symm⟩
    | cons first between =>
      obtain ⟨rfl, -⟩ := List.cons.inj hrest
      exact absurd (h.1 layer' (hbehind List.mem_cons_self)) h'.2

/-- A default profile whose pass has not begun when the first layer activates profiles is passed over, unless that layer or a later one
includes it. -/
theorem passedOver_iff_of_first (hnone : AsksForNone env) (hdefault : name ∈ env.defaults)
    (hfirst : FirstToActivate earlier layer) (hpass : some name ∉ Milestone.passes earlier) :
    PassedOver env (earlier ++ .layer layer :: later) name ↔
      ∀ other ∈ layer :: Milestone.asking later, name ∉ other.included := by
  constructor
  · rintro ⟨-, -, earlier', layer', later', he, hbefore', hfirst', -, hafter⟩
    obtain ⟨-, rfl, rfl⟩ := hfirst.unique ⟨hbefore', hfirst'⟩ he
    exact hafter
  · exact fun hafter => ⟨hnone, hdefault, earlier, layer, later, rfl, hfirst.1, hfirst.2, hpass, hafter⟩

end First

/-! ## The end of a search -/

section Completed

variable {discovery : Discovery} {resources : Resources} {env : Environment} {plan : SearchPlan} {start finish : Progress}
  {name : String}

/-- At the end of a search those are covered that were processed. -/
theorem Completed.covered_iff (h : Completed discovery resources env plan start finish) :
    Covered none finish name ↔ name ∈ finish.processed.names := by
  simp [Covered, entered, Awaits, h.done]

/-- Where no layer activates a profile, all default profiles are processed. -/
theorem Completed.defaults_processed (h : Completed discovery resources env plan start finish) (hnone : AsksForNone env)
    (hsilent : ∀ layer ∈ Milestone.asking finish.history, layer.activated = []) (hdefault : name ∈ env.defaults) :
    name ∈ finish.processed.names := by
  have ha : finish.activated = false :=
    h.accounted.mayActivate_iff.mp ⟨hnone.2.1, hnone.2.2, hsilent⟩
  by_contra hnot
  have hentered : name ∉ entered none finish := by simpa [entered] using hnot
  obtain ⟨profile, hw, -⟩ := (h.accounted.pending hnone ha name hdefault hentered).1
  rw [h.done] at hw
  cases hw

/-- A profile that some layer includes is processed, unless it was passed over. -/
theorem Completed.processed_of_included (h : Completed discovery resources env plan start finish) {layer : AskingLayer}
    (hl : layer ∈ Milestone.asking finish.history) (hname : name ∈ layer.included) (hnot : ¬PassedOver env finish.history name) :
    name ∈ finish.processed.names := by
  have hactive : name ∈ finish.environment.active := by
    rw [h.attributed.active_eq]
    exact mem_activeBehind_of_included hl hname
  exact h.covered_iff.mp ((h.accounted.active name hactive).resolve_right hnot)

/-- Where a layer is the first one that activates any profile, those default profiles whose pass has not begun then are processed that
this layer or a later one includes. -/
theorem Completed.processed_iff_of_first (h : Completed discovery resources env plan start finish) (hnone : AsksForNone env)
    {earlier later : List Milestone} {layer : AskingLayer} (he : finish.history = earlier ++ .layer layer :: later)
    (hfirst : FirstToActivate earlier layer) (hdefault : name ∈ env.defaults)
    (hpass : some name ∉ Milestone.passes earlier) :
    name ∈ finish.processed.names ↔ ∃ other ∈ layer :: Milestone.asking later, name ∈ other.included := by
  have hiff : PassedOver env (earlier ++ .layer layer :: later) name ↔ _ := passedOver_iff_of_first hnone hdefault hfirst hpass
  rw [← he] at hiff
  have hloaded : ∀ other ∈ layer :: Milestone.asking later, other ∈ Milestone.asking finish.history := by
    intro other ho
    rw [he]
    simpa [Milestone.asking] using Or.inr (List.mem_cons.mp ho)
  constructor
  · intro hprocessed
    by_contra hno
    have hpassed : PassedOver env finish.history name :=
      hiff.mpr fun other ho hn => hno ⟨other, ho, hn⟩
    exact h.accounted.passedOver name hpassed (h.covered_iff.mpr hprocessed)
  · rintro ⟨other, ho, hn⟩
    exact h.processed_of_included (hloaded other ho) hn fun hpassed => hiff.mp hpassed other ho hn

/-- Where the environment asks for some profile, whatever is processed was active there or is named in a list that was read. -/
theorem Completed.asked_of_processed (h : Completed discovery resources env plan start finish) (hasks : ¬AsksForNone env)
    (hn : name ∈ finish.processed.names) : name ∈ env.active ∨ name ∈ env.declared ∨ name ∈ env.included ∨
      ∃ layer ∈ Milestone.asking finish.history, name ∈ layer.activated ∨ name ∈ layer.included := by
  have hactive := h.attributed.covered_active hasks name (h.covered_iff.mpr hn)
  rw [h.attributed.active_eq] at hactive
  rcases exists_of_mem_activeBehind hactive with hstart | hlayer
  · rcases mem_activeAtStart.mp hstart with (hn | hn) | hn
    · exact Or.inl hn
    · exact Or.inr (Or.inl hn)
    · exact Or.inr (Or.inr (Or.inl hn))
  · exact Or.inr (Or.inr (Or.inr hlayer))

end Completed

/-- What becomes of the default profiles in a search that came to its end, by the lists in its history, which are those that the layers
read ask for. Where the environment asks for no profile: if no layer activates
any, all default profiles are processed; and if one is the first to do so, then of those whose pass has not begun when it is read,
exactly those are processed that it or a later layer includes. Where the environment asks for some profile, a default profile is
processed only if it was active there or is named in a list of the environment or of a layer that was read. -/
theorem default_fate_of_run (discovery : Discovery) (resources : Resources) (env : Environment) (found : Discovered)
    (h : (discovery.run resources env).result = .ok found) :
    (AsksForNone env →
        ((∀ layer ∈ Milestone.asking (discovery.run resources env).history, layer.activated = []) →
          ∀ name ∈ env.defaults, name ∈ found.processed) ∧
        ∀ earlier layer later, (discovery.run resources env).history = earlier ++ .layer layer :: later →
          FirstToActivate earlier layer → ∀ name ∈ env.defaults, some name ∉ Milestone.passes earlier →
            (name ∈ found.processed ↔ ∃ other ∈ layer :: Milestone.asking later, name ∈ other.included)) ∧
      (¬AsksForNone env → ∀ name ∈ env.defaults, name ∈ found.processed →
        name ∈ env.active ∨ name ∈ env.declared ∨ name ∈ env.included ∨
          ∃ layer ∈ Milestone.asking (discovery.run resources env).history,
            name ∈ layer.activated ∨ name ∈ layer.included) ∧
      AsBound env (discovery.run resources env).history := by
  obtain ⟨plan, start, finish, hrun⟩ := run_eq_ok h
  obtain ⟨-, hprocessed⟩ := hrun.found_eq h
  rw [hrun.history, hprocessed]
  refine ⟨fun hnone => ⟨?_, ?_⟩, ?_, hrun.accounted.bound⟩
  · exact fun hsilent name hdefault => hrun.defaults_processed hnone hsilent hdefault
  · intro earlier layer later he hfirst name hdefault hpass
    exact hrun.processed_iff_of_first hnone he hfirst hdefault hpass
  · exact fun hasks name _ hn => hrun.asked_of_processed hasks hn

/-- An environment with three profiles that stand in. -/
def environmentOfStandIns : Environment := { defaults := ["default", "extra", "other"] }

/-- Files of which the one for the first profile that stands in activates a profile whose file includes the second one. -/
def activatingFromDefault : Resources :=
  Resources.ofList [("classpath:/application-default.properties", "liftoff.profiles.active=a"),
    ("classpath:/application-a.properties", "liftoff.profiles.include=extra")]

/-- The profile that is included again has its pass, and the third one has none. -/
theorem default_fate_of_run_activatingFromDefault :
    let outcome := searchOfRoot.run activatingFromDefault environmentOfStandIns
    let found : Discovered :=
      { loaded := ["applicationConfig: [classpath:/application-default.properties]",
          "applicationConfig: [classpath:/application-a.properties]"]
        processed := ["default", "a", "extra"] }
    let first : AskingLayer :=
      { layer :=
          { Layer.ofEntries "applicationConfig: [classpath:/application-default.properties]" [(Key.activeProfiles, "a")] with
            origin := some "classpath:/application-default.properties" }
        activated := ["a"], included := [] }
    let second : AskingLayer :=
      { layer :=
          { Layer.ofEntries "applicationConfig: [classpath:/application-a.properties]" [(Key.includedProfiles, "extra")] with
            origin := some "classpath:/application-a.properties" }
        activated := [], included := ["extra"] }
    outcome.result = .ok found ∧ AsksForNone environmentOfStandIns ∧
      outcome.history = [.pass none, .pass (some "default")] ++ .layer first ::
        [.pass (some "a"), .layer second, .pass (some "extra")] ∧
      ∀ name ∈ ["extra", "other"],
        (name ∈ found.processed ↔ ∃ other ∈ [first, second], name ∈ other.included) := by
  intro outcome found first second
  have hrun : outcome.result = .ok found := by decide +kernel
  have hnone : AsksForNone environmentOfStandIns := ⟨rfl, by decide +kernel, by decide +kernel⟩
  have hhistory : outcome.history = [.pass none, .pass (some "default")] ++ .layer first ::
      [.pass (some "a"), .layer second, .pass (some "extra")] := by decide +kernel
  have hfirst : FirstToActivate [.pass none, .pass (some "default")] first :=
    ⟨fun _ ho => absurd ho List.not_mem_nil, by decide +kernel⟩
  refine ⟨hrun, hnone, hhistory, fun name hn => ?_⟩
  have hdefault : ∀ name ∈ ["extra", "other"], name ∈ environmentOfStandIns.defaults ∧
      some name ∉ Milestone.passes [.pass none, .pass (some "default")] := by decide +kernel
  exact ((default_fate_of_run _ _ _ _ hrun).1 hnone).2 _ _ _ hhistory hfirst name (hdefault name hn).1 (hdefault name hn).2

end Discovery

end Ignition
