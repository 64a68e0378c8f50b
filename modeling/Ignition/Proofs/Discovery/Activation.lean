import Ignition.Proofs.Discovery.Completeness

/-!
# Which profiles are active behind a search

The active profiles behind a search follow from the environment at its beginning and the lists bound from the layers that were read, in
order, by a rule that mentions no passes (`active_of_run`): the profiles that the environment declares go behind those active before, the
included ones ahead; then each layer puts the profiles it includes ahead, and before them the profiles it activates, if it *may activate*
(`MayActivate`): nothing was declared or included in the environment, and no layer before it activated anything. The invariant
`Attributed` keeps this account while a search is under way, and also that all passes are for active profiles if the environment asks for
any.
-/

namespace Ignition

namespace Discovery

open Progress

/-! ## The rule -/

/-- A layer may activate profiles behind some earlier layers: the environment includes and declares none, and no earlier layer activates
any. -/
def MayActivate (env : Environment) (earlier : List AskingLayer) : Prop :=
  env.included = [] ∧ env.declared = [] ∧ ∀ layer ∈ earlier, layer.activated = []

instance (env : Environment) (earlier : List AskingLayer) : Decidable (MayActivate env earlier) :=
  inferInstanceAs (Decidable (_ ∧ _ ∧ _))

/-- The active profiles when a search begins: behind those active before the ones that the environment declares, and ahead of all the
ones that it includes. -/
def activeAtStart (env : Environment) : List String :=
  env.included.foldl withNameFirst (env.declared.foldl withName env.active)

/-- The active profiles behind a layer, which was read behind some earlier ones. -/
def activeWith (env : Environment) (earlier : List AskingLayer) (active : List String) (layer : AskingLayer) : List String :=
  layer.included.foldl withNameFirst (if MayActivate env earlier then layer.activated.foldl withNameFirst active else active)

/-- The active profiles behind some layers, which were read behind some earlier ones. -/
def activeBehind (env : Environment) (earlier : List AskingLayer) (active : List String) : List AskingLayer → List String
  | [] => active
  | layer :: later => activeBehind env (earlier ++ [layer]) (activeWith env earlier active layer) later

section Rule

variable {env : Environment} {earlier later layers : List AskingLayer} {active : List String} {layer : AskingLayer} {name : String}

/-- The rule goes on where it got to. -/
theorem activeBehind_concat : activeBehind env earlier active (layers ++ [layer]) =
    activeWith env (earlier ++ layers) (activeBehind env earlier active layers) layer := by
  induction layers generalizing earlier active with
  | nil => rw [List.append_nil]; rfl
  | cons first layers ih => rw [List.cons_append, activeBehind, ih, List.append_assoc, List.singleton_append]; rfl

/-- Behind a layer those are active that were, those that it includes, and those that it activates if it may. -/
theorem mem_activeWith : name ∈ activeWith env earlier active layer ↔
    (name ∈ active ∨ MayActivate env earlier ∧ name ∈ layer.activated) ∨ name ∈ layer.included := by
  rw [activeWith, mem_foldl_of_mem_step mem_withNameFirst]
  refine or_congr_left ?_
  split
  · rename_i hmay
    rw [mem_foldl_of_mem_step mem_withNameFirst]
    exact or_congr_right (iff_and_self.mpr fun _ => hmay)
  · rename_i hmay
    exact ⟨Or.inl, fun h => h.resolve_right fun hn => hmay hn.1⟩

/-- Whoever is active stays so. -/
theorem mem_activeBehind_of_mem (h : name ∈ active) : name ∈ activeBehind env earlier active layers := by
  induction layers generalizing earlier active with
  | nil => exact h
  | cons layer later ih => exact ih (mem_activeWith.mpr (Or.inl (Or.inl h)))

/-- Profiles that a layer includes are active behind all layers. -/
theorem mem_activeBehind_of_included (hl : layer ∈ layers) (h : name ∈ layer.included) :
    name ∈ activeBehind env earlier active layers := by
  induction layers generalizing earlier active with
  | nil => cases hl
  | cons first later ih =>
    rw [activeBehind]
    rcases List.mem_cons.mp hl with rfl | hl
    · exact mem_activeBehind_of_mem (mem_activeWith.mpr (Or.inr h))
    · exact ih hl

/-- Who is active behind some layers was active before, or a layer activates or includes it. -/
theorem exists_of_mem_activeBehind (h : name ∈ activeBehind env earlier active layers) :
    name ∈ active ∨ ∃ layer ∈ layers, name ∈ layer.activated ∨ name ∈ layer.included := by
  induction layers generalizing earlier active with
  | nil => exact Or.inl h
  | cons layer later ih =>
    rcases ih h with h | ⟨other, ho, h⟩
    · rcases mem_activeWith.mp h with (h | ⟨-, h⟩) | h
      · exact Or.inl h
      · exact Or.inr ⟨layer, List.mem_cons_self, Or.inl h⟩
      · exact Or.inr ⟨layer, List.mem_cons_self, Or.inr h⟩
    · exact Or.inr ⟨other, List.mem_cons_of_mem _ ho, h⟩

/-- When a search begins, those are active that were, and those that the environment declares or includes. -/
theorem mem_activeAtStart : name ∈ activeAtStart env ↔
    (name ∈ env.active ∨ name ∈ env.declared) ∨ name ∈ env.included := by
  rw [activeAtStart, mem_foldl_of_mem_step mem_withNameFirst, mem_foldl_of_mem_step mem_withName]

end Rule

/-! ## Names that are there already -/

/-- Names that a list holds already change nothing ahead of it. -/
theorem foldl_withNameFirst_of_subset {names active : List String} (h : ∀ name ∈ names, name ∈ active) :
    names.foldl withNameFirst active = active := by
  induction names with
  | nil => rfl
  | cons name names ih =>
    have hhas : active.contains name = true := List.contains_iff_mem.mpr (h name List.mem_cons_self)
    rw [List.foldl_cons, withNameFirst, if_pos hhas]
    exact ih fun other ho => h other (List.mem_cons_of_mem _ ho)

/-- A set that is extended keeps its names in front, and the names behind them come from the extension. -/
theorem exists_names_extend (set : ProfileSet) (profiles : List Profile) :
    ∃ more, (set.extend profiles).names = set.names ++ more ∧ ∀ name ∈ more, name ∈ profiles.map (·.name) := by
  induction profiles generalizing set with
  | nil => exact ⟨[], by simp [ProfileSet.extend], by simp⟩
  | cons profile profiles ih =>
    obtain ⟨more, hmore, hmem⟩ := ih (set.insert profile)
    by_cases hold : profile.name ∈ set.names
    · rw [ProfileSet.insert, if_pos (ProfileSet.contains_iff.mpr hold)] at hmore
      refine ⟨more, ?_, fun name hn => List.mem_cons_of_mem _ (hmem name hn)⟩
      rw [← hmore, ProfileSet.extend, List.foldl_cons, ProfileSet.insert, if_pos (ProfileSet.contains_iff.mpr hold)]
      rfl
    · rw [ProfileSet.names_insert_of_notMem hold, List.append_assoc] at hmore
      refine ⟨profile.name :: more, hmore, ?_⟩
      intro name hn
      rcases List.mem_cons.mp hn with rfl | hn
      · exact List.mem_cons_self
      · exact List.mem_cons_of_mem _ (hmem name hn)

/-! ## The invariant -/

section Attributed

variable {env : Environment} {plan : SearchPlan} {resources : Resources} {current : Option String} {p q : Progress}
  {active included declared : ProfileSet} {layer : Layer} {name : String}

/-- A search all of whose active profiles and passes are accounted for by what the environment and the layers read ask for. -/
structure Attributed (env : Environment) (current : Option String) (p : Progress) : Prop extends Accounted env current p where
  /-- The active profiles are those that the rule gives for the layers read. -/
  active_eq : p.environment.active = activeBehind env [] (activeAtStart env) (Milestone.asking p.history)
  /-- If the environment asks for any profile, only active profiles have passes. -/
  covered_active : ¬AsksForNone env → ∀ name, Covered current p name → name ∈ p.environment.active

/-- A layer may activate exactly if no activation was granted yet. -/
theorem Accounted.mayActivate_iff (h : Accounted env current p) :
    MayActivate env (Milestone.asking p.history) ↔ p.activated = false := by
  rw [← Bool.not_eq_true, h.activated, MayActivate, not_or, not_not, and_assoc]
  simp

/-- A request puts its profiles ahead, unless one was granted before. -/
theorem active_request : (p.request active).environment.active =
    if p.activated = false then active.names.foldl withNameFirst p.environment.active else p.environment.active := by
  rcases granted_or_ignored p active with ⟨hne, ha⟩ | hignored
  · rw [request_of_granted hne ha, if_pos ha]
  · obtain ⟨log, hr⟩ := request_of_ignored hignored
    rw [hr]
    rcases hignored with hempty | ha
    · rw [ProfileSet.names_eq_nil_iff.mpr hempty]
      split <;> rfl
    · rw [if_neg (by rw [ha]; decide)]

/-- Behind a layer that is taken the active profiles are those that the rule gives. -/
theorem active_take (h : Accounted env current p) :
    (p.take active included layer).environment.active = activeWith env (Milestone.asking p.history) p.environment.active
      { layer, activated := active.names, included := included.names } := by
  have hmay := h.mayActivate_iff
  rw [take, includeProfiles_eq]
  simp only [reach]
  rw [active_request, activeWith]
  simp only [hmay]

/-- When the search begins the active profiles are those that the environment asks for. -/
theorem active_asked : (asked env included declared).environment.active =
    included.names.foldl withNameFirst (declared.names.foldl withName env.active) := by
  simp only [asked, enqueue, Environment.foldl_activate]
  rw [active_request, if_pos rfl]
  obtain ⟨more, hmore, hmem⟩ := exists_names_extend included declared.profiles
  rw [hmore, List.foldl_append, @foldl_withNameFirst_of_subset more]
  · rfl
  · intro name hn
    rw [mem_foldl_of_mem_step mem_withNameFirst, mem_foldl_of_mem_step mem_withName]
    exact Or.inl (Or.inr (hmem name hn))

/-- Who is covered when a layer has been taken was covered before, or the layer asks for it. -/
theorem covered_of_take (hexplicit : ∀ profile ∈ active.profiles, profile.standsIn = false)
    (h : Covered current (p.take active included layer) name) :
    Covered current p name ∨ (name ∈ active.names ∧ p.activated = false) ∨ name ∈ included.names := by
  rcases h with h | h
  · rw [entered_take] at h
    exact Or.inl (Or.inl h)
  rcases awaits_take.mp h with h | ⟨h, -⟩
  · rcases granted_or_ignored p active with ⟨hne, ha⟩ | hignored
    · rcases (awaits_request_of_granted hne ha hexplicit).mp h with ⟨profile, hw, hname, -⟩ | ⟨hn, -⟩
      · exact Or.inl (Or.inr ⟨profile, hw, hname⟩)
      · exact Or.inr (Or.inl ⟨hn, ha⟩)
    · obtain ⟨profile, hw, hname⟩ := h
      rw [waiting_request_of_ignored hignored] at hw
      exact Or.inl (Or.inr ⟨profile, hw, hname⟩)
  · exact Or.inr (Or.inr h)

/-- Taking a layer keeps the account. -/
theorem Attributed.accept (h : Attributed env current p) (haccept : p.accept layer = .ok q) : Attributed env current q := by
  have haccounted := h.toAccounted.accept haccept
  obtain ⟨active, included, -, -, hexplicit, -, rfl⟩ := accept_eq_ok h.environment haccept
  refine ⟨haccounted, ?_, ?_⟩
  · rw [active_take h.toAccounted, history_take, Milestone.asking_append_layer, activeBehind_concat, List.nil_append,
      ← h.active_eq]
  · intro hasks name hcovered
    rw [mem_active_take]
    rcases covered_of_take hexplicit hcovered with hcovered | hn | hn
    · exact Or.inl (Or.inl (h.covered_active hasks name hcovered))
    · exact Or.inl (Or.inr hn)
    · exact Or.inr hn

/-- The account is kept. -/
theorem attributed_kept (env : Environment) (plan : SearchPlan) (resources : Resources) :
    Kept plan resources (Attributed env) where
  waiting h := (accounted_kept env plan resources).waiting h.toAccounted
  move hmove h := by
    have haccounted := (accounted_kept env plan resources).move hmove h.toAccounted
    cases hmove with
    | noted => exact ⟨haccounted, h.active_eq, h.covered_active⟩
    | lookedUp => exact ⟨haccounted, h.active_eq, h.covered_active⟩
    | accepted _ haccept => exact h.accept haccept
  skip {p profile rest} hw hold h := by
    refine ⟨(accounted_kept env plan resources).skip hw hold h.toAccounted, h.active_eq, ?_⟩
    rintro hasks name (hn | ⟨other, ho, hname⟩)
    · exact h.covered_active hasks name (Or.inl hn)
    · exact h.covered_active hasks name (Or.inr ⟨other, hw ▸ List.mem_cons_of_mem _ ho, hname⟩)
  begin {p profile rest} hw hnew h := by
    have haccounted := (accounted_kept env plan resources).begin hw hnew h.toAccounted
    refine ⟨haccounted, ?_, ?_⟩
    · rw [beginning, reach, Milestone.asking_append_pass]
      exact h.active_eq
    · rintro hasks name (hn | ⟨other, ho, hname⟩)
      · -- The profile whose pass begins waited for it.
        rcases List.mem_append.mp hn with hn | hn
        · exact h.covered_active hasks name (Or.inl (List.mem_append_left _ hn))
        · have hname : profile.name = name := (List.mem_singleton.mp hn).symm
          exact h.covered_active hasks name (Or.inr ⟨profile, hw ▸ List.mem_cons_self, hname⟩)
      · exact h.covered_active hasks name (Or.inr ⟨other, hw ▸ List.mem_cons_of_mem _ ho, hname⟩)
  finish {p profile} h := by
    have haccounted := (accounted_kept env plan resources).finish h.toAccounted
    refine ⟨haccounted, h.active_eq, ?_⟩
    rintro hasks name (hn | hn)
    · have hentered : name ∈ entered (some profile.name) p := by
        rw [h.mem_entered_iff]
        exact haccounted.mem_entered_iff.mp hn
      exact h.covered_active hasks name (Or.inl hentered)
    · exact h.covered_active hasks name (Or.inr hn)

/-- When the pass for no profile begins, the account is right. -/
theorem attributed_start (h : Progress.start env = .ok p) : ∃ rest, p.waiting = none :: rest ∧
    Attributed env none (({ p with waiting := rest } : Progress).reach (.pass none)) := by
  obtain ⟨rest, hrest, haccounted⟩ := accounted_start h
  obtain ⟨included, declared, hincluded, hdeclared, hexplicit, hexplicit', rfl⟩ := start_eq_ok h
  refine ⟨rest, hrest, haccounted, ?_, ?_⟩
  · rw [seed_eq]
    simp only [reach, history_asked, active_asked, hincluded, hdeclared]
    rfl
  · intro hasks name hcovered
    have hwaiting : (asked env included declared).waiting ≠ [] := by
      rw [Ne, waiting_asked_eq_nil_iff hexplicit hexplicit', hincluded, hdeclared]
      exact hasks
    rw [waiting_seed, if_neg hwaiting] at hrest
    obtain rfl := (List.cons.inj hrest).2
    rw [seed_eq] at hcovered ⊢
    rcases hcovered with hn | hn
    · simp [entered, reach, processed_asked, ProfileSet.names] at hn
    · exact (awaits_asked hexplicit hexplicit').mp hn

/-- At the end of a search that came to its end the account is right. -/
theorem Completed.attributed {discovery : Discovery} {start finish : Progress}
    (h : Completed discovery resources env plan start finish) : Attributed env none finish :=
  h.kept (attributed_kept env plan resources) (attributed_start h.start_eq)

end Attributed

/-! ## The active profiles at the end -/

/-- In a search that came to its end, the active profiles are those that the rule gives for the lists bound from the layers read, in the
order of reading; and these are the lists that the layers ask for. -/
theorem active_of_run (discovery : Discovery) (resources : Resources) (env : Environment) (found : Discovered)
    (h : (discovery.run resources env).result = .ok found) :
    (discovery.run resources env).environment.active =
        activeBehind env [] (activeAtStart env) (Milestone.asking (discovery.run resources env).history) ∧
      AsBound env (discovery.run resources env).history ∧
      (Milestone.layers (discovery.run resources env).history).map (·.name) = found.loaded := by
  obtain ⟨plan, start, finish, hrun⟩ := run_eq_ok h
  obtain ⟨hloaded, -⟩ := hrun.found_eq h
  rw [hrun.active, hrun.history, hloaded]
  exact ⟨hrun.attributed.active_eq, hrun.accounted.bound, rfl⟩

/-- Files two of which activate profiles, and two of which include some. -/
def activatingFiles : Resources :=
  Resources.ofList [("classpath:/application.properties", "liftoff.profiles.include=a"),
    ("classpath:/application-a.properties", "mode=b\nliftoff.profiles.active=${mode},c\nliftoff.profiles.include=d"),
    ("classpath:/application-d.properties", "liftoff.profiles.active=e")]

/-- The first file that activates profiles wins, and what the second one activates is ignored. -/
theorem active_of_run_activatingFiles :
    let found : Discovered :=
      { loaded := ["applicationConfig: [classpath:/application.properties]",
          "applicationConfig: [classpath:/application-a.properties]",
          "applicationConfig: [classpath:/application-d.properties]"]
        processed := ["a", "d", "b", "c"] }
    (searchOfRoot.run activatingFiles {}).result = .ok found ∧
      (searchOfRoot.run activatingFiles {}).environment.active =
        activeBehind {} [] (activeAtStart {}) (Milestone.asking (searchOfRoot.run activatingFiles {}).history) ∧
      AsBound {} (searchOfRoot.run activatingFiles {}).history ∧
      (Milestone.asking (searchOfRoot.run activatingFiles {}).history).map (fun layer => (layer.activated, layer.included)) =
        [([], ["a"]), (["b", "c"], ["d"]), (["e"], [])] ∧
      (searchOfRoot.run activatingFiles {}).environment.active = ["d", "c", "b", "a"] := by
  intro found
  have hrun : (searchOfRoot.run activatingFiles {}).result = .ok found := by decide +kernel
  obtain ⟨hactive, hbound, -⟩ := active_of_run _ _ _ _ hrun
  exact ⟨hrun, hactive, hbound, by decide +kernel, by decide +kernel⟩

end Discovery

end Ignition
