import Ignition.Proofs.Discovery.Passes

/-!
# Which layers a search reads

Every layer that a search takes was read by a format of its plan from a resource (`Completed.gives`). The standard formats, and others
that do the same, give the layer the name they are asked to give it (`Formats.NamesAsAsked`), and this is the name for the location and
the profile; so no layer that is read passes for the layer of last resort.
-/

namespace Ignition

/-! ## Names that formats give -/

/-- Formats that give each layer the name that they are asked to give it. -/
def Formats.NamesAsAsked (formats : Formats) : Prop :=
  ∀ format ∈ formats.formats, ∀ (name : String) (resource : Resource) (profile : Option String) (layer : Layer),
    format.read name resource profile = .ok (some layer) → layer.name = name

/-- A layer of entries has the name it was given. -/
theorem Format.name_of_layerOf? {name : String} {resource : Resource} {entries : Entries} {layer : Layer}
    (h : layerOf? name resource entries = some layer) : layer.name = name := by
  unfold layerOf? at h
  split at h
  · cases h
  · cases h
    rfl

/-- The standard formats give each layer the name that they are asked to give it. -/
theorem Formats.standard_namesAsAsked : Formats.standard.NamesAsAsked := by
  intro format hformat name resource profile layer hread
  simp only [standard, List.mem_cons, List.not_mem_nil, or_false] at hformat
  rcases hformat with rfl | rfl | rfl
  · simp only [Format.properties] at hread
    split at hread
    · cases hread
    · split at hread
      · exact Format.name_of_layerOf? (Except.ok.inj hread)
      · cases hread
  · simp only [Format.yaml] at hread
    split at hread
    · exact Format.name_of_layerOf? (Except.ok.inj hread)
    · cases hread
  · simp only [Format.toml] at hread
    split at hread
    · cases hread
    · split at hread
      · exact Format.name_of_layerOf? (Except.ok.inj hread)
      · cases hread

namespace Discovery

open Progress

/-- The name for a location and a profile is not that of the layer of last resort. -/
theorem layerName_ne_defaults (location : String) (profile : Option String) :
    layerName location profile ≠ LayerName.defaults := by
  intro h
  have hhead := congrArg (fun name => name.toList.head?) h
  cases profile <;> simp [layerName, LayerName.fileLayer, LayerName.defaults] at hhead

/-- A layer for no profile has the name of its location alone. -/
theorem layerName_none_eq_iff {location other : String} {wanted : Option String} :
    layerName other wanted = layerName location none ↔ other = location ∧ wanted = none := by
  constructor
  · intro h
    cases wanted with
    | none =>
      refine ⟨?_, rfl⟩
      simpa [layerName, String.ext_iff] using h
    | some profile =>
      have hlast := congrArg (fun name => name.toList.reverse.head?) h
      simp [layerName] at hlast
  · rintro ⟨rfl, rfl⟩
    rfl

section Gives

variable {env : Environment} {plan : SearchPlan} {resources : Resources} {current : Option String} {p : Progress} {layer : Layer}

/-- A layer that a plan gives has the name for the location and the profile it was read for. -/
theorem name_of_gives (hformats : plan.formats.NamesAsAsked) (h : plan.Gives resources layer) :
    ∃ location, layer.name = layerName location layer.profile := by
  cases h with
  | @read location extension wanted format resource layer hformat _ hread =>
    have hname : layer.name = layerName location wanted :=
      hformats format (List.mem_of_find?_eq_some hformat) _ _ _ _ hread
    exact ⟨location, hname⟩

/-! ## Layers that are taken -/

/-- A search that is orderly and has taken only layers that its plan gives. -/
structure Sourced (env : Environment) (plan : SearchPlan) (resources : Resources) (current : Option String) (p : Progress) :
    Prop extends Orderly env current p where
  /-- The plan gives the layers taken. -/
  gives : ∀ layer ∈ p.loaded, plan.Gives resources layer

/-- A search takes only layers that its plan gives. -/
theorem sourced_kept (env : Environment) (plan : SearchPlan) (resources : Resources) :
    Kept plan resources (Sourced env plan resources) where
  waiting h := (orderly_kept env plan resources).waiting h.toOrderly
  move {current p q} hmove h := by
    have horderly := (orderly_kept env plan resources).move hmove h.toOrderly
    cases hmove with
    | noted => exact ⟨horderly, h.gives⟩
    | lookedUp => exact ⟨horderly, h.gives⟩
    | accepted hgives haccept =>
      obtain ⟨active, included, -, -, -, -, rfl⟩ := accept_eq_ok h.environment haccept
      refine ⟨horderly, ?_⟩
      intro other ho
      rw [loaded, history_take, Milestone.layers_append_layer, List.mem_append, List.mem_singleton] at ho
      rcases ho with ho | rfl
      · exact h.gives other ho
      · exact hgives
  skip hw hold h := ⟨(orderly_kept env plan resources).skip hw hold h.toOrderly, h.gives⟩
  begin hw hnew h := by
    refine ⟨(orderly_kept env plan resources).begin hw hnew h.toOrderly, ?_⟩
    rw [loaded, beginning, reach, Milestone.layers_append_pass]
    exact h.gives
  finish h := ⟨(orderly_kept env plan resources).finish h.toOrderly, h.gives⟩

/-- When the pass for no profile begins, no layer has been taken. -/
theorem sourced_start (h : Progress.start env = .ok p) : ∃ rest, p.waiting = none :: rest ∧
    Sourced env plan resources none (({ p with waiting := rest } : Progress).reach (.pass none)) := by
  obtain ⟨rest, hw, horderly⟩ := orderly_start h
  obtain ⟨included, declared, -, -, -, -, rfl⟩ := start_eq_ok h
  refine ⟨rest, hw, horderly, ?_⟩
  intro layer hl
  rw [loaded, reach, Milestone.layers_append_pass, seed_eq, history_asked] at hl
  exact absurd hl List.not_mem_nil

/-- The layers that a search has taken at its end are layers that its plan gives. -/
theorem Completed.gives {discovery : Discovery} {start finish : Progress}
    (h : Completed discovery resources env plan start finish) : ∀ layer ∈ finish.loaded, plan.Gives resources layer :=
  (h.kept (sourced_kept env plan resources) (sourced_start h.start_eq)).gives

/-- What a search goes by has the formats of the search, and the places and base names for the environment. -/
theorem plan_eq_ok {discovery : Discovery} (h : discovery.plan env = .ok plan) :
    ∃ locations names, discovery.searchLocations env = .ok locations ∧ discovery.searchNames env = .ok names ∧
      plan = { formats := discovery.formats, locations, names } := by
  simp only [Discovery.plan] at h
  cases hlocations : discovery.searchLocations env with
  | error fault => rw [hlocations] at h; cases h
  | ok locations =>
    rw [hlocations] at h
    cases hnames : discovery.searchNames env with
    | error fault => rw [hnames] at h; cases h
    | ok names =>
      rw [hnames] at h
      cases h
      exact ⟨locations, names, rfl, rfl, rfl⟩

/-- The formats of a plan are those of the search. -/
theorem formats_of_plan {discovery : Discovery} (h : discovery.plan env = .ok plan) : plan.formats = discovery.formats := by
  obtain ⟨locations, names, -, -, rfl⟩ := plan_eq_ok h
  rfl

/-- No layer that a search has taken at its end has the name of the layer of last resort. -/
theorem Completed.name_ne_defaults {discovery : Discovery} {start finish : Progress}
    (h : Completed discovery resources env plan start finish) (hformats : discovery.formats.NamesAsAsked) :
    ∀ layer ∈ finish.loaded, layer.name ≠ LayerName.defaults := by
  intro layer hl
  rw [← formats_of_plan h.plan_eq] at hformats
  obtain ⟨location, hname⟩ := name_of_gives hformats (h.gives layer hl)
  rw [hname]
  exact layerName_ne_defaults _ _

end Gives

end Discovery

end Ignition
