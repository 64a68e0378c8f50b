import Ignition.Proofs.Discovery.Passes

/-!
# Which active profiles have a pass

A profile that becomes active waits for its pass, unless it is known already. There is one gap: a default profile that only stands in is
known while it waits, so a request for it lets nothing new wait; and when the first activation is granted, the profiles that stand in
stop waiting, also those that were asked for. Such a profile is *passed over* (`PassedOver`) unless a file includes it afterwards. Which
layer activates or includes what is read off the history, where each layer stands with the lists that were bound from it (`AsBound`). The
invariant `Accounted` says where each active profile is: it has had its pass, is in it, waits, or was passed over. At the end of a search
the active profiles without a pass are exactly those passed over (`processed_iff_not_passedOver`).
-/

namespace Ignition

namespace Discovery

open Progress

/-! ## Profiles that are passed over -/

/-- An environment that asks for no profile: none is active, included or declared. -/
def AsksForNone (env : Environment) : Prop :=
  env.active = [] ∧ env.included = [] ∧ env.declared = []

/-- The lists in a history are those that its layers ask for in an environment, each behind the ones read before. -/
def AsBound (env : Environment) (history : List Milestone) : Prop :=
  Milestone.asking history = (Milestone.layers history).mapIdx fun earlier layer => layer.asking env earlier

/-- A default profile is passed over in a history: the environment asks for no profile, and the first layer that activates any is read
before the pass for the default profile, which neither this layer nor a later one includes. -/
def PassedOver (env : Environment) (history : List Milestone) (name : String) : Prop :=
  AsksForNone env ∧ name ∈ env.defaults ∧
    ∃ earlier layer later, history = earlier ++ .layer layer :: later ∧
      (∀ other ∈ Milestone.asking earlier, other.activated = []) ∧ layer.activated ≠ [] ∧
      some name ∉ Milestone.passes earlier ∧
      ∀ other ∈ layer :: Milestone.asking later, name ∉ other.included

section PassedOver

variable {env : Environment} {history : List Milestone} {name : String}

/-- A milestone of a longer history is its last one, or one of the history before. -/
theorem concat_eq_append_cons {last first : Milestone} {earlier later : List Milestone}
    (h : history ++ [last] = earlier ++ first :: later) :
    (history = earlier ∧ last = first ∧ later = []) ∨
      ∃ others, later = others ++ [last] ∧ history = earlier ++ first :: others := by
  rcases List.eq_nil_or_concat later with rfl | ⟨others, other, rfl⟩
  · obtain ⟨hhistory, hlast⟩ := List.append_inj' h rfl
    exact Or.inl ⟨hhistory, List.head_eq_of_cons_eq hlast, rfl⟩
  · rw [List.concat_eq_append, ← List.cons_append, ← List.append_assoc] at h
    obtain ⟨hhistory, hlast⟩ := List.append_inj' h rfl
    exact Or.inr ⟨others, by rw [List.concat_eq_append, hlast], hhistory⟩

/-- The beginning of a pass changes nothing about the lists in a history. -/
theorem asBound_append_pass (profile : Option String) : AsBound env (history ++ [.pass profile]) ↔ AsBound env history := by
  rw [AsBound, AsBound, Milestone.asking_append_pass, Milestone.layers_append_pass]

/-- A layer that is read with the lists that it asks for keeps those in the history. -/
theorem asBound_append_layer {layer : AskingLayer} (h : AsBound env history)
    (hlayer : layer = layer.layer.asking env (Milestone.layers history).length) : AsBound env (history ++ [.layer layer]) := by
  rw [AsBound, Milestone.asking_append_layer, Milestone.layers_append_layer, List.mapIdx_concat, ← h, ← hlayer]

/-- A layer in such a history is one that was read, with the lists that it asks for. -/
theorem AsBound.exists_layer (h : AsBound env history) {layer : AskingLayer} (hl : layer ∈ Milestone.asking history) :
    ∃ read ∈ Milestone.layers history, ∃ earlier, layer = read.asking env earlier := by
  rw [h] at hl
  obtain ⟨earlier, hlt, rfl⟩ := List.mem_mapIdx.mp hl
  exact ⟨_, List.getElem_mem hlt, earlier, rfl⟩

/-- The beginning of a pass changes nothing about which profiles are passed over. -/
theorem passedOver_append_pass (profile : Option String) :
    PassedOver env (history ++ [.pass profile]) name ↔ PassedOver env history name := by
  refine and_congr_right fun _ => and_congr_right fun _ => ⟨?_, ?_⟩
  · rintro ⟨earlier, first, later, he, hrest⟩
    rcases concat_eq_append_cons he with ⟨-, hlast, -⟩ | ⟨others, rfl, hhistory⟩
    · cases hlast
    · rw [Milestone.asking_append_pass] at hrest
      exact ⟨earlier, first, others, hhistory, hrest⟩
  · rintro ⟨earlier, first, later, rfl, hrest⟩
    refine ⟨earlier, first, later ++ [.pass profile], by simp, ?_⟩
    rw [Milestone.asking_append_pass]
    exact hrest

/-- When a layer is read, those profiles are passed over that were and that it does not include, and if it is the first to activate
any, also the default profiles whose pass has not begun and that it does not include. -/
theorem passedOver_append_layer (layer : AskingLayer) : PassedOver env (history ++ [.layer layer]) name ↔
    name ∉ layer.included ∧ (PassedOver env history name ∨
      AsksForNone env ∧ name ∈ env.defaults ∧ (∀ other ∈ Milestone.asking history, other.activated = []) ∧
        layer.activated ≠ [] ∧ some name ∉ Milestone.passes history) := by
  constructor
  · rintro ⟨hnone, hdefault, earlier, first, later, he, hbefore, hfirst, hpass, hafter⟩
    rcases concat_eq_append_cons he with ⟨rfl, hlast, rfl⟩ | ⟨others, rfl, rfl⟩
    · cases hlast
      exact ⟨hafter layer List.mem_cons_self, Or.inr ⟨hnone, hdefault, hbefore, hfirst, hpass⟩⟩
    · rw [Milestone.asking_append_layer, ← List.cons_append] at hafter
      refine ⟨hafter layer (by simp), Or.inl ⟨hnone, hdefault, earlier, first, others, rfl, hbefore, hfirst, hpass, ?_⟩⟩
      exact fun other ho => hafter other (List.mem_append_left _ ho)
  · rintro ⟨hnot, ⟨hnone, hdefault, earlier, first, later, rfl, hbefore, hfirst, hpass, hafter⟩ |
      ⟨hnone, hdefault, hbefore, hfirst, hpass⟩⟩
    · refine ⟨hnone, hdefault, earlier, first, later ++ [.layer layer], by simp, hbefore, hfirst, hpass, ?_⟩
      rw [Milestone.asking_append_layer, ← List.cons_append]
      intro other ho
      rcases List.mem_append.mp ho with ho | ho
      · exact hafter other ho
      · rw [List.mem_singleton.mp ho]
        exact hnot
    · refine ⟨hnone, hdefault, history, layer, [], rfl, hbefore, hfirst, hpass, ?_⟩
      intro other ho
      rw [List.mem_singleton.mp ho]
      exact hnot

/-- Where a profile is passed over, some layer activates a profile. -/
theorem PassedOver.exists_activated (h : PassedOver env history name) :
    ∃ layer ∈ Milestone.asking history, layer.activated ≠ [] := by
  obtain ⟨-, -, earlier, layer, later, rfl, -, hfirst, -, -⟩ := h
  exact ⟨layer, by simp [Milestone.asking], hfirst⟩

end PassedOver

/-! ## The invariant -/

section Accounted

variable {env : Environment} {plan : SearchPlan} {resources : Resources} {current : Option String} {p q : Progress} {name : String}

/-- Whether a profile has had its pass, is in it, or waits for it. -/
def Covered (current : Option String) (p : Progress) (name : String) : Prop :=
  name ∈ entered current p ∨ p.Awaits name

/-- Where the profiles of a search in an environment are, within the pass for a profile or between two passes. -/
structure Accounted (env : Environment) (current : Option String) (p : Progress) : Prop extends Orderly env current p where
  /-- The lists in the history are those that were bound. -/
  bound : AsBound env p.history
  /-- An activation was granted if the environment includes or declares a profile, or a layer activates one. -/
  activated : p.activated = true ↔
    ¬(env.included = [] ∧ env.declared = []) ∨ ∃ layer ∈ Milestone.asking p.history, layer.activated ≠ []
  /-- Only default profiles stand in, only where the environment asks for none, and only until an activation is granted. -/
  standing : ∀ profile, some profile ∈ p.waiting → profile.standsIn = true →
    AsksForNone env ∧ p.activated = false ∧ profile.name ∈ env.defaults
  /-- Until then a default profile that is not entered waits, and only as one that stands in. -/
  pending : AsksForNone env → p.activated = false → ∀ name ∈ env.defaults, name ∉ entered current p →
    p.Awaits name ∧ ∀ profile, some profile ∈ p.waiting → profile.name = name → profile.standsIn = true
  /-- A profile that is active is covered or was passed over. -/
  active : ∀ name ∈ p.environment.active, Covered current p name ∨ PassedOver env p.history name
  /-- A profile that was passed over is not covered. -/
  passedOver : ∀ name, PassedOver env p.history name → ¬Covered current p name

/-- A profile whose pass has begun is entered. -/
theorem Orderly.mem_entered_iff (h : Orderly env current p) :
    name ∈ entered current p ↔ some name ∈ Milestone.passes p.history := by
  rw [h.passes]
  simp

/-! ## Taking a layer -/

section Take

variable {active included : ProfileSet} {layer : Layer}

theorem entered_take : entered current (p.take active included layer) = entered current p := by
  rw [entered, processed_take, entered]

/-- The profiles that a layer includes are covered when it is taken. -/
theorem covered_take_of_mem_included (hn : name ∈ included.names) : Covered current (p.take active included layer) name := by
  by_cases hp : name ∈ p.processed.names
  · exact Or.inl (by rw [entered_take]; exact List.mem_append_left _ hp)
  · exact Or.inr (awaits_take.mpr (Or.inr ⟨hn, hp⟩))

/-- A request that is ignored uncovers nothing. -/
theorem Covered.take_of_ignored (h : Covered current p name) (hignored : active.profiles = [] ∨ p.activated = true) :
    Covered current (p.take active included layer) name := by
  rcases h with h | ⟨profile, hw, rfl⟩
  · exact Or.inl (by rw [entered_take]; exact h)
  · refine Or.inr (awaits_take.mpr (Or.inl ⟨profile, ?_, rfl⟩))
    rw [waiting_request_of_ignored hignored]
    exact hw

/-- What waits when a request is ignored is what waited, and the included profiles that were not known. -/
theorem mem_waiting_take_of_ignored (hignored : active.profiles = [] ∨ p.activated = true) {pass : Option Profile} :
    pass ∈ (p.take active included layer).waiting ↔
      (∃ profile ∈ included.profiles, p.knows profile.name = false ∧ some profile = pass) ∨ pass ∈ p.waiting := by
  have hknows : ∀ other, (p.request active).knows other = p.knows other := by
    intro other
    rw [knows, processed_request, waiting_request_of_ignored hignored, knows]
  rw [mem_waiting_take, waiting_request_of_ignored hignored]
  simp only [hknows]

/-- Until an activation is granted, no layer has activated a profile. -/
theorem Accounted.activated_eq_nil (h : Accounted env current p) (ha : p.activated = false) :
    ∀ other ∈ Milestone.asking p.history, other.activated = [] := by
  intro other ho
  by_contra hne
  exact Bool.false_ne_true (ha.symm.trans (h.activated.mpr (Or.inr ⟨other, ho, hne⟩)))

/-- Where an activation is granted, the profiles that were active or that it names stay covered, but for default profiles that only
stood in: these are passed over unless the layer includes them. -/
theorem Accounted.covered_or_passedOver (h : Accounted env current p)
    (hexplicit : ∀ profile ∈ active.profiles, profile.standsIn = false) (hne : active.profiles ≠ []) (ha : p.activated = false)
    (hn : name ∈ p.environment.active ∨ name ∈ active.names) (hnot : name ∉ included.names) :
    Covered current (p.take active included layer) name ∨ PassedOver env (p.take active included layer).history name := by
  rw [history_take]
  by_cases hentered : name ∈ entered current p
  · exact Or.inl (Or.inl (by rw [entered_take]; exact hentered))
  by_cases hwaits : p.Awaits name
  · by_cases hasked : ∃ profile, some profile ∈ p.waiting ∧ profile.name = name ∧ profile.standsIn = false
    · exact Or.inl (Or.inr (awaits_take.mpr (Or.inl ((awaits_request_of_granted hne ha hexplicit).mpr (Or.inl hasked)))))
    · obtain ⟨profile, hw, rfl⟩ := hwaits
      have hstands : profile.standsIn = true := by
        by_contra hs
        exact hasked ⟨profile, hw, rfl, Bool.eq_false_iff.mpr hs⟩
      obtain ⟨hnone, -, hdefault⟩ := h.standing profile hw hstands
      refine Or.inr ((passedOver_append_layer _).mpr
        ⟨hnot, Or.inr ⟨hnone, hdefault, h.activated_eq_nil ha, ?_, ?_⟩⟩)
      · rwa [Ne, ProfileSet.names_eq_nil_iff]
      · rwa [← h.toOrderly.mem_entered_iff]
  · have hnew : p.knows name = false :=
      knows_eq_false_iff.mpr ⟨fun hp => hentered (List.mem_append_left _ hp), hwaits⟩
    rcases hn with hn | hn
    · rcases h.active name hn with (hc | hc) | hpassed
      · exact absurd hc hentered
      · exact absurd hc hwaits
      · exact Or.inr ((passedOver_append_layer _).mpr ⟨hnot, Or.inl hpassed⟩)
    · exact Or.inl (Or.inr (awaits_take.mpr
        (Or.inl ((awaits_request_of_granted hne ha hexplicit).mpr (Or.inr ⟨hn, hnew⟩)))))

/-- What is passed over when a layer has been taken is not covered. -/
theorem Accounted.not_covered_take (h : Accounted env current p)
    (hexplicit : ∀ profile ∈ active.profiles, profile.standsIn = false)
    (hpassed : PassedOver env (p.take active included layer).history name) :
    ¬Covered current (p.take active included layer) name := by
  rw [history_take] at hpassed
  obtain ⟨hnot, hpassed | ⟨hnone, hdefault, hbefore, hfirst, hpass⟩⟩ := (passedOver_append_layer _).mp hpassed
  · -- It was passed over before, so an activation was granted before, and the request of the layer is ignored.
    have ha : p.activated = true := h.activated.mpr (Or.inr hpassed.exists_activated)
    rintro (hc | hc)
    · exact h.passedOver name hpassed (Or.inl (by rwa [entered_take] at hc))
    · rcases awaits_take.mp hc with ⟨profile, hw, hp⟩ | ⟨hn, -⟩
      · rw [waiting_request_of_ignored (Or.inr ha)] at hw
        exact h.passedOver name hpassed (Or.inr ⟨profile, hw, hp⟩)
      · exact hnot hn
  · -- The layer is the first to activate a profile; until then this one only stood in.
    have ha : p.activated = false := by
      rw [← Bool.not_eq_true, h.activated]
      rintro (hne | ⟨other, ho, hne⟩)
      · exact hne hnone.2
      · exact hne (hbefore other ho)
    have hne : active.profiles ≠ [] := by rwa [Ne, ProfileSet.names_eq_nil_iff] at hfirst
    have hentered : name ∉ entered current p := by rwa [h.toOrderly.mem_entered_iff]
    obtain ⟨hwaits, hstands⟩ := h.pending hnone ha name hdefault hentered
    rintro (hc | hc)
    · exact hentered (by rwa [entered_take] at hc)
    · rcases awaits_take.mp hc with hc | ⟨hn, -⟩
      · rcases (awaits_request_of_granted hne ha hexplicit).mp hc with ⟨profile, hw, hp, hs⟩ | ⟨-, hk⟩
        · exact Bool.false_ne_true (hs.symm.trans (hstands profile hw hp))
        · exact (knows_eq_false_iff.mp hk).2 hwaits
      · exact hnot hn

/-- When a layer has been taken, an activation was granted if one was before or if the layer activates a profile. -/
theorem Accounted.activated_of_take (h : Accounted env current p) :
    (p.take active included layer).activated = true ↔ ¬(env.included = [] ∧ env.declared = []) ∨
      ∃ other ∈ Milestone.asking (p.take active included layer).history, other.activated ≠ [] := by
  rw [activated_take, h.activated, history_take, Milestone.asking_append_layer, or_assoc]
  simp only [List.mem_append, List.mem_singleton, or_and_right, exists_or, exists_eq_left]
  rw [Ne, Ne, ProfileSet.names_eq_nil_iff]

/-- Profiles that stand in behind a layer stood in before it, and the request of the layer was empty. -/
theorem Accounted.standing_of_take (h : Accounted env current p)
    (hexplicit : ∀ profile ∈ included.profiles, profile.standsIn = false) {profile : Profile}
    (hw : some profile ∈ (p.take active included layer).waiting) (hs : profile.standsIn = true) :
    AsksForNone env ∧ (p.take active included layer).activated = false ∧ profile.name ∈ env.defaults := by
  rcases mem_waiting_take.mp hw with ⟨other, ho, -, he⟩ | hw
  · cases he
    exact absurd hs (by rw [hexplicit profile ho]; exact Bool.false_ne_true)
  · rcases granted_or_ignored p active with ⟨hne, ha⟩ | hignored
    · have hs' := ((mem_waiting_request_of_granted hne ha).mp hw).1
      exact absurd hs (by simpa [standsIn] using hs')
    · rw [waiting_request_of_ignored hignored] at hw
      obtain ⟨hnone, ha, hdefault⟩ := h.standing profile hw hs
      refine ⟨hnone, ?_, hdefault⟩
      rw [← Bool.not_eq_true, activated_take, ha]
      exact not_or.mpr ⟨Bool.false_ne_true, not_not.mpr (hignored.resolve_right (by rw [ha]; exact Bool.false_ne_true))⟩

/-- As long as no activation is granted, the default profiles that are not entered go on waiting as ones that stand in. -/
theorem Accounted.pending_of_take (h : Accounted env current p) (hnone : AsksForNone env)
    (ha : (p.take active included layer).activated = false) (hdefault : name ∈ env.defaults)
    (hentered : name ∉ entered current (p.take active included layer)) :
    (p.take active included layer).Awaits name ∧ ∀ profile, some profile ∈ (p.take active included layer).waiting →
      profile.name = name → profile.standsIn = true := by
  rw [← Bool.not_eq_true, activated_take, not_or, Bool.not_eq_true, not_not] at ha
  rw [entered_take] at hentered
  have hignored : active.profiles = [] ∨ p.activated = true := Or.inl ha.2
  obtain ⟨hwaits, hstands⟩ := h.pending hnone ha.1 name hdefault hentered
  refine ⟨?_, ?_⟩
  · have hcovered : Covered current p name := Or.inr hwaits
    exact (hcovered.take_of_ignored hignored).resolve_left (by rwa [entered_take])
  · intro profile hw hp
    rcases (mem_waiting_take_of_ignored hignored).mp hw with ⟨other, -, hk, he⟩ | hw
    · cases he
      exact absurd hwaits (hp ▸ (knows_eq_false_iff.mp hk).2)
    · exact hstands profile hw hp

/-- A profile that is active behind a layer is covered then or was passed over. -/
theorem Accounted.active_of_take (h : Accounted env current p)
    (hexplicit : ∀ profile ∈ active.profiles, profile.standsIn = false)
    (hn : name ∈ (p.take active included layer).environment.active) :
    Covered current (p.take active included layer) name ∨ PassedOver env (p.take active included layer).history name := by
  by_cases hin : name ∈ included.names
  · exact Or.inl (covered_take_of_mem_included hin)
  have hn := (mem_active_take.mp hn).resolve_right hin
  rcases granted_or_ignored p active with ⟨hne, ha⟩ | hignored
  · exact h.covered_or_passedOver hexplicit hne ha (hn.imp_right And.left) hin
  · rcases h.active name (hn.resolve_right (not_granted_of_ignored hignored)) with hc | hpassed
    · exact Or.inl (hc.take_of_ignored hignored)
    · rw [history_take]
      exact Or.inr ((passedOver_append_layer _).mpr ⟨hin, Or.inl hpassed⟩)

/-- Taking a layer keeps account of the profiles. -/
theorem Accounted.accept (h : Accounted env current p) (haccept : p.accept layer = .ok q) : Accounted env current q := by
  obtain ⟨active, included, hactive, hincluded, hexplicit, hexplicit', hq⟩ := accept_eq_ok h.environment haccept
  have horderly := h.toOrderly.accept haccept
  subst hq
  refine ⟨horderly, ?_, h.activated_of_take, ?_, ?_, ?_, ?_⟩
  · rw [history_take]
    exact asBound_append_layer h.bound (by rw [hactive, hincluded]; rfl)
  · exact fun profile hw hs => h.standing_of_take hexplicit' hw hs
  · exact fun hnone ha name hdefault hentered => h.pending_of_take hnone ha hdefault hentered
  · exact fun name hn => h.active_of_take hexplicit hn
  · exact fun name hpassed => h.not_covered_take hexplicit hpassed

end Take

/-! ## Passes -/

/-- When a profile stops waiting because it has had its pass or its pass begins, all profiles stay accounted for. -/
theorem Accounted.pop {profile : Profile} (h : Accounted env none p) (horderly : Orderly env current q)
    (hw : p.waiting = some profile :: q.waiting) (henvironment : q.environment = p.environment)
    (hactivated : q.activated = p.activated) (hbound : AsBound env q.history)
    (hasking : Milestone.asking q.history = Milestone.asking p.history)
    (hentered : ∀ name, name ∈ entered current q ↔ name ∈ entered none p ∨ name = profile.name)
    (hpassedOver : ∀ name, PassedOver env q.history name ↔ PassedOver env p.history name) : Accounted env current q := by
  have hwaits : ∀ name, p.Awaits name ↔ profile.name = name ∨ q.Awaits name := by
    intro name
    simp [Awaits, hw, or_and_right, exists_or]
  have hcovered : ∀ name, Covered current q name ↔ Covered none p name := by
    intro name
    rw [Covered, Covered, hentered, hwaits, or_assoc, eq_comm]
  refine ⟨horderly, hbound, ?_, ?_, ?_, ?_, ?_⟩
  · rw [hactivated, hasking]
    exact h.activated
  · intro other ho hs
    rw [hactivated]
    exact h.standing other (hw ▸ List.mem_cons_of_mem _ ho) hs
  · intro hnone ha name hdefault hnot
    rw [hentered, not_or] at hnot
    obtain ⟨hwait, hstands⟩ := h.pending hnone (hactivated ▸ ha) name hdefault hnot.1
    exact ⟨((hwaits name).mp hwait).resolve_left (Ne.symm hnot.2),
      fun other ho => hstands other (hw ▸ List.mem_cons_of_mem _ ho)⟩
  · intro name hn
    rw [henvironment] at hn
    rw [hcovered, hpassedOver]
    exact h.active name hn
  · intro name hpassed
    rw [hcovered]
    exact h.passedOver name ((hpassedOver name).mp hpassed)

/-- All profiles stay accounted for. -/
theorem accounted_kept (env : Environment) (plan : SearchPlan) (resources : Resources) :
    Kept plan resources (Accounted env) where
  waiting h := (orderly_kept env plan resources).waiting h.toOrderly
  move hmove h := by
    have horderly := (orderly_kept env plan resources).move hmove h.toOrderly
    cases hmove with
    | noted => exact ⟨horderly, h.bound, h.activated, h.standing, h.pending, h.active, h.passedOver⟩
    | lookedUp => exact ⟨horderly, h.bound, h.activated, h.standing, h.pending, h.active, h.passedOver⟩
    | accepted _ haccept => exact h.accept haccept
  skip {p profile rest} hw hold h := by
    refine h.pop ((orderly_kept env plan resources).skip hw hold h.toOrderly) hw rfl rfl h.bound rfl (fun name => ?_)
      fun _ => Iff.rfl
    refine ⟨Or.inl, fun hn => hn.elim id ?_⟩
    rintro rfl
    exact List.mem_append_left _ (ProfileSet.contains_iff.mp hold)
  begin {p profile rest} hw hnew h := by
    refine h.pop ((orderly_kept env plan resources).begin hw hnew h.toOrderly) hw rfl rfl ((asBound_append_pass _).mpr h.bound)
      (Milestone.asking_append_pass _ _) (fun name => ?_) fun _ => passedOver_append_pass _
    simp [entered, beginning, reach, Progress.note]
  finish {p profile} h := by
    have horderly := (orderly_kept env plan resources).finish h.toOrderly
    have hentered : ∀ name, name ∈ entered none { p with processed := p.processed.insert profile } ↔
        name ∈ entered (some profile.name) p := by
      intro name
      rw [horderly.mem_entered_iff, h.toOrderly.mem_entered_iff]
    have hcovered : ∀ name, Covered none { p with processed := p.processed.insert profile } name ↔
        Covered (some profile.name) p name := fun name => or_congr_left (hentered name)
    refine ⟨horderly, h.bound, h.activated, h.standing, ?_, ?_, ?_⟩
    · intro hnone ha name hdefault hnot
      exact h.pending hnone ha name hdefault ((hentered name).not.mp hnot)
    · intro name hn
      rw [hcovered]
      exact h.active name hn
    · intro name hpassed
      rw [hcovered]
      exact h.passedOver name hpassed

/-- When the pass for no profile begins, all profiles are accounted for. -/
theorem accounted_start (h : Progress.start env = .ok p) :
    ∃ rest, p.waiting = none :: rest ∧ Accounted env none (({ p with waiting := rest } : Progress).reach (.pass none)) := by
  obtain ⟨rest, hrest, horderly⟩ := orderly_start h
  obtain ⟨included, declared, hincluded, hdeclared, hexplicit, hexplicit', rfl⟩ := start_eq_ok h
  have hnone : (asked env included declared).waiting = [] ↔ AsksForNone env := by
    rw [waiting_asked_eq_nil_iff hexplicit hexplicit', hincluded, hdeclared, AsksForNone]
  rw [waiting_seed] at hrest
  obtain rfl := (List.cons.inj hrest).2
  refine ⟨_, waiting_seed, ?_⟩
  rw [seed_eq] at horderly ⊢
  refine ⟨horderly, ?_, ?_, ?_, ?_, ?_, ?_⟩
  · simp [reach, history_asked, AsBound, Milestone.asking, Milestone.layers]
  · simp only [reach, history_asked, activated_asked, hincluded, hdeclared]
    simp [Milestone.asking]
  · intro profile hw hs
    simp only [reach] at hw ⊢
    split at hw
    · rename_i hw'
      obtain ⟨name, hn, he⟩ := List.mem_map.mp hw
      cases he
      have hasks := hnone.mp hw'
      refine ⟨hasks, ?_, hn⟩
      rw [← Bool.not_eq_true, activated_asked, hincluded, hdeclared]
      exact not_not.mpr hasks.2
    · obtain ⟨_, he, hs', -⟩ := mem_waiting_asked hexplicit hexplicit' hw
      cases he
      exact absurd hs (by rw [hs']; exact Bool.false_ne_true)
  · intro hasks _ name hdefault _
    simp only [reach, Awaits, if_pos (hnone.mpr hasks)]
    refine ⟨⟨_, List.mem_map_of_mem hdefault, rfl⟩, ?_⟩
    intro profile hw _
    obtain ⟨_, -, he⟩ := List.mem_map.mp hw
    cases he
    rfl
  · intro name hn
    refine Or.inl (Or.inr ?_)
    have hawaits := (awaits_asked hexplicit hexplicit').mpr hn
    have hne : (asked env included declared).waiting ≠ [] := by
      obtain ⟨profile, hw, -⟩ := hawaits
      exact List.ne_nil_of_mem hw
    simp only [reach, Awaits]
    rw [if_neg hne]
    exact hawaits
  · intro name hpassed
    obtain ⟨layer, hl, -⟩ := hpassed.exists_activated
    simp [reach, history_asked, Milestone.asking] at hl

/-- At the end of a search that came to its end all profiles are accounted for. -/
theorem Completed.accounted {discovery : Discovery} {start finish : Progress}
    (h : Completed discovery resources env plan start finish) : Accounted env none finish :=
  h.kept (accounted_kept env plan resources) (accounted_start h.start_eq)

end Accounted

/-! ## Active profiles without a pass -/

/-- In a search that came to its end, a profile that is active at the end had a pass exactly if it was not passed over, by the lists in
its history, which are those that the layers read ask for. -/
theorem processed_iff_not_passedOver (discovery : Discovery) (resources : Resources) (env : Environment) (found : Discovered)
    (name : String) (h : (discovery.run resources env).result = .ok found)
    (hactive : name ∈ (discovery.run resources env).environment.active) :
    (name ∈ found.processed ↔ ¬PassedOver env (discovery.run resources env).history name) ∧
      AsBound env (discovery.run resources env).history := by
  obtain ⟨plan, start, finish, hrun⟩ := run_eq_ok h
  obtain ⟨-, hfound⟩ := hrun.found_eq h
  have haccounted := hrun.accounted
  have hcovered : Covered none finish name ↔ name ∈ found.processed := by
    simp [Covered, entered, Awaits, hrun.done, hfound]
  rw [hrun.active] at hactive
  rw [hrun.history, ← hcovered]
  refine ⟨?_, haccounted.bound⟩
  constructor
  · intro hcov hpassed
    exact haccounted.passedOver name hpassed hcov
  · intro hnot
    exact (haccounted.active name hactive).resolve_right hnot

theorem processed_iff_not_passedOver_includingFiles :
    let found : Discovered :=
      { loaded := ["applicationConfig: [classpath:/application.properties]",
          "applicationConfig: [classpath:/application-a.properties]",
          "applicationConfig: [classpath:/application-b.properties]"]
        processed := ["a", "b", "default"] }
    (searchOfRoot.run includingFiles {}).result = .ok found ∧
      "a" ∈ (searchOfRoot.run includingFiles {}).environment.active ∧
      ("a" ∈ found.processed ↔ ¬PassedOver {} (searchOfRoot.run includingFiles {}).history "a") ∧
      AsBound {} (searchOfRoot.run includingFiles {}).history := by
  intro found
  have hrun : (searchOfRoot.run includingFiles {}).result = .ok found := by decide +kernel
  have hactive : "a" ∈ (searchOfRoot.run includingFiles {}).environment.active := by decide +kernel
  exact ⟨hrun, hactive, processed_iff_not_passedOver _ _ _ _ _ hrun hactive⟩

/-- A file that activates the profile that stands in. -/
def activatingDefault : Resources :=
  Resources.ofList [("classpath:/application.properties", "liftoff.profiles.active=default")]

/-- The profile that stands in is active and has no pass when a file read before its pass activates it by name. -/
theorem default_active_not_processed :
    (searchOfRoot.run activatingDefault {}).result =
        .ok { loaded := ["applicationConfig: [classpath:/application.properties]"], processed := [] } ∧
      (searchOfRoot.run activatingDefault {}).environment.active = ["default"] := by
  decide +kernel

end Discovery

end Ignition
