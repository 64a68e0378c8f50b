import Ignition.Proofs.Config.Fallbacks

/-!
# Texts one behind the other

Behind a closed text another one is expanded as it is by itself: no key that is kept and no brace that is awaited is left from the
placeholders before. So the two have an expansion exactly if both have one, which is then the one behind the other, and otherwise they
fail as the first of the two does that fails, or go on for ever (`Environment.outcomes_of_append`).
-/

namespace Ignition

open Placeholder

namespace Environment

/-! ## Outcomes -/

/-- An outcome that a text has without a limit on the depth: it is that of some depth, and no limit brought it about. -/
def HasOutcome (env : Environment) (text : String) (outcome : Except PlaceholderError String) : Prop :=
  Finished outcome ∧ ∃ depth, (env.deepen depth).outcome text = outcome

section Outcomes

open Filter (atTop)

variable {env : Environment} {text first second expanded : String} {outcome outcome' : Except PlaceholderError String}
  {error : PlaceholderError} {depth : Nat}

/-- Two texts of which the first is closed have the outcome of the one and then the other, under one limit. -/
theorem outcome_append [env.Steady] (hclosed : Closed first.toList) (hapart : Apart first.toList second.toList) :
    env.outcome (first ++ second) = do
      let ahead ← env.outcome first
      let behind ← env.outcome second
      return ahead ++ behind := by
  have hsame : env = env.deepen env.nesting := rfl
  rw [hsame, outcome_deepen_eq, outcome_deepen_eq, outcome_deepen_eq, String.toList_append,
    expandWithin_append_of_closed hclosed hapart, ahead_eq_self]
  cases env.expandWithin "" env.nesting [] first.toList with
  | error error => rfl
  | ok ahead =>
    cases env.expandWithin "" env.nesting [] second.toList with
    | error error => rfl
    | ok behind => exact congrArg Except.ok (String.ofList_append)

/-- An outcome that a text has is that of all greater depths. -/
theorem HasOutcome.eventually (h : env.HasOutcome text outcome) :
    ∀ᶠ depth in atTop, (env.deepen depth).outcome text = outcome := by
  obtain ⟨hfinished, depth, rfl⟩ := h
  rw [outcome_deepen_eq] at hfinished
  have hmore := @eventually_expandWithin env "" depth { visiting := [], text := text.toList } (avoids_map_iff.mp hfinished)
  refine hmore.mono fun deeper hdeeper => ?_
  rw [outcome_deepen_eq, outcome_deepen_eq, hdeeper]

/-- A text has one outcome at most. -/
theorem HasOutcome.unique (h : env.HasOutcome text outcome) (h' : env.HasOutcome text outcome') : outcome = outcome' := by
  obtain ⟨depth, hdepth, hdepth'⟩ := (h.eventually.and h'.eventually).exists
  rw [← hdepth, hdepth']

/-- Whether a limit brought an outcome about does not depend on the text that an error names. -/
theorem finished_unquoted_iff {α : Type} {outcome : Except PlaceholderError α} :
    Finished (outcome.mapError (·.unquoted)) ↔ Finished outcome := by
  cases outcome with
  | error error =>
    have hsame : error.unquoted.isTooDeep = error.isTooDeep := by cases error <;> rfl
    change Finished (.error error.unquoted : Except PlaceholderError α) ↔ _
    rw [Finished, Finished, avoids_error_iff, avoids_error_iff, hsame]
  | ok a => exact iff_of_true (avoids_ok a) (avoids_ok a)

/-- A text has an outcome unless its expansion is endless. -/
theorem endless_iff : env.Endless text ↔ ∀ outcome, ¬env.HasOutcome text outcome := by
  have hfinished (depth : Nat) : Finished ((env.deepen depth).outcome text) ↔ Finished (env.expandWithin text depth [] text.toList) :=
    finished_unquoted_iff.trans avoids_expand_deepen_iff
  constructor
  · rintro hendless outcome ⟨houtcome, depth, rfl⟩
    exact hendless depth ((hfinished depth).mp houtcome)
  · intro hnone depth hdepth
    exact hnone _ ⟨(hfinished depth).mpr hdepth, depth, rfl⟩

section Both

variable {ε : Type} {former latter : Except ε String} {whole : String} {failure : ε}

theorem both_eq_ok_iff : (do let ahead ← former; let behind ← latter; return ahead ++ behind) = .ok whole ↔
    ∃ ahead behind, former = .ok ahead ∧ latter = .ok behind ∧ whole = ahead ++ behind := by
  constructor
  · intro h
    cases former with
    | error failure => cases h
    | ok ahead =>
      cases latter with
      | error failure => cases h
      | ok behind =>
        cases h
        exact ⟨ahead, behind, rfl, rfl, rfl⟩
  · rintro ⟨ahead, behind, rfl, rfl, rfl⟩
    rfl

theorem both_eq_error_iff : (do let ahead ← former; let behind ← latter; return ahead ++ behind) = .error failure ↔
    former = .error failure ∨ (∃ ahead, former = .ok ahead) ∧ latter = .error failure := by
  constructor
  · intro h
    cases former with
    | error other =>
      cases h
      exact .inl rfl
    | ok ahead =>
      cases latter with
      | error other =>
        cases h
        exact .inr ⟨⟨ahead, rfl⟩, rfl⟩
      | ok behind => cases h
  · rintro (rfl | ⟨⟨ahead, rfl⟩, rfl⟩) <;> rfl

end Both

/-- Two texts of which the first is closed have an expansion exactly if both have one. -/
theorem hasOutcome_ok_append [env.Steady] (hclosed : Closed first.toList) (hapart : Apart first.toList second.toList) :
    env.HasOutcome (first ++ second) (.ok expanded) ↔
      ∃ ahead behind, env.HasOutcome first (.ok ahead) ∧ env.HasOutcome second (.ok behind) ∧ expanded = ahead ++ behind := by
  constructor
  · rintro ⟨-, depth, hdepth⟩
    rw [outcome_append hclosed hapart, both_eq_ok_iff] at hdepth
    obtain ⟨ahead, behind, hahead, hbehind, rfl⟩ := hdepth
    exact ⟨ahead, behind, ⟨avoids_ok ahead, depth, hahead⟩, ⟨avoids_ok behind, depth, hbehind⟩, rfl⟩
  · rintro ⟨ahead, behind, hfirst, hsecond, rfl⟩
    obtain ⟨depth, hahead, hbehind⟩ := (hfirst.eventually.and hsecond.eventually).exists
    refine ⟨avoids_ok _, depth, ?_⟩
    rw [outcome_append hclosed hapart, both_eq_ok_iff]
    exact ⟨ahead, behind, hahead, hbehind, rfl⟩

/-- They fail as the first of them does that fails. -/
theorem hasOutcome_error_append [env.Steady] (hclosed : Closed first.toList) (hapart : Apart first.toList second.toList) :
    env.HasOutcome (first ++ second) (.error error) ↔
      env.HasOutcome first (.error error) ∨ (∃ ahead, env.HasOutcome first (.ok ahead)) ∧ env.HasOutcome second (.error error) := by
  constructor
  · rintro ⟨hfinished, depth, hdepth⟩
    rw [outcome_append hclosed hapart, both_eq_error_iff] at hdepth
    rcases hdepth with hfirst | ⟨⟨ahead, hahead⟩, hsecond⟩
    · exact .inl ⟨hfinished, depth, hfirst⟩
    · exact .inr ⟨⟨ahead, avoids_ok ahead, depth, hahead⟩, hfinished, depth, hsecond⟩
  · rintro (⟨hfinished, depth, hfirst⟩ | ⟨⟨ahead, hfirst⟩, hsecond⟩)
    · refine ⟨hfinished, depth, ?_⟩
      rw [outcome_append hclosed hapart, both_eq_error_iff]
      exact .inl hfirst
    · obtain ⟨depth, hahead, hbehind⟩ := (hfirst.eventually.and hsecond.eventually).exists
      refine ⟨hsecond.1, depth, ?_⟩
      rw [outcome_append hclosed hapart, both_eq_error_iff]
      exact .inr ⟨⟨ahead, hahead⟩, hbehind⟩

/-- They go on for ever if the first one does, or the second one behind a first one that has an expansion. -/
theorem endless_append_iff [env.Steady] (hclosed : Closed first.toList) (hapart : Apart first.toList second.toList) :
    env.Endless (first ++ second) ↔
      env.Endless first ∨ (∃ ahead, env.HasOutcome first (.ok ahead)) ∧ env.Endless second := by
  simp only [endless_iff]
  constructor
  · intro hnone
    by_cases hfirst : ∀ outcome, ¬env.HasOutcome first outcome
    · exact .inl hfirst
    · obtain ⟨former, hformer⟩ := not_forall_not.mp hfirst
      cases former with
      | error error => exact absurd ((hasOutcome_error_append hclosed hapart).mpr (.inl hformer)) (hnone _)
      | ok ahead =>
        refine .inr ⟨⟨ahead, hformer⟩, fun latter hlatter => ?_⟩
        cases latter with
        | error error =>
          exact hnone _ ((hasOutcome_error_append hclosed hapart).mpr (.inr ⟨⟨ahead, hformer⟩, hlatter⟩))
        | ok behind =>
          exact hnone _ ((hasOutcome_ok_append hclosed hapart).mpr ⟨ahead, behind, hformer, hlatter, rfl⟩)
  · intro hnone outcome houtcome
    cases outcome with
    | ok expanded =>
      obtain ⟨ahead, behind, hfirst, hsecond, -⟩ := (hasOutcome_ok_append hclosed hapart).mp houtcome
      rcases hnone with hnone | ⟨-, hnone⟩
      · exact hnone _ hfirst
      · exact hnone _ hsecond
    | error error =>
      rcases (hasOutcome_error_append hclosed hapart).mp houtcome with hfirst | ⟨⟨ahead, hahead⟩, hsecond⟩
      · rcases hnone with hnone | ⟨⟨ahead, hahead⟩, -⟩
        · exact hnone _ hfirst
        · nomatch hahead.unique hfirst
      · rcases hnone with hnone | ⟨-, hnone⟩
        · exact hnone _ hahead
        · exact hnone _ hsecond

end Outcomes

/-- In a steady environment, and so in one without random values, a text in which each placeholder is closed and another text behind it,
which does not begin with a brace where the first one ends with a dollar sign, have an expansion exactly if both have one by themselves,
and then it is the one behind the other. They fail exactly if one of the two does, in the way of the first one that fails and for the same
key; and they go on for ever exactly if the first one does, or the second one behind a first one that has an expansion. Under a limit on the
depth, the outcome is that of the first and then of the second text under the same limit. -/
theorem outcomes_of_append (env : Environment) (hsteady : env.Steady) (first second : String) (hclosed : Closed first.toList)
    (hapart : Apart first.toList second.toList) :
    (∀ expanded, env.HasOutcome (first ++ second) (.ok expanded) ↔
        ∃ ahead behind, env.HasOutcome first (.ok ahead) ∧ env.HasOutcome second (.ok behind) ∧ expanded = ahead ++ behind) ∧
      (∀ error, env.HasOutcome (first ++ second) (.error error) ↔
        env.HasOutcome first (.error error) ∨ (∃ ahead, env.HasOutcome first (.ok ahead)) ∧ env.HasOutcome second (.error error)) ∧
      (env.Endless (first ++ second) ↔
        env.Endless first ∨ (∃ ahead, env.HasOutcome first (.ok ahead)) ∧ env.Endless second) ∧
      env.outcome (first ++ second) = do
        let ahead ← env.outcome first
        let behind ← env.outcome second
        return ahead ++ behind :=
  ⟨fun _ => hasOutcome_ok_append hclosed hapart, fun _ => hasOutcome_error_append hclosed hapart,
    endless_append_iff hclosed hapart, outcome_append hclosed hapart⟩

/-- A text with a nested placeholder, a brace that closes none and a dollar sign at its end; the texts behind it have a placeholder for a
key with a value, or for one without. -/
theorem outcomes_of_append_oneValue :
    oneValue.Steady ∧ Closed "$\x7bmissing:$\x7bk\x7d\x7d\x7d$".toList ∧
      Apart "$\x7bmissing:$\x7bk\x7d\x7d\x7d$".toList "k$\x7bk\x7d".toList ∧
      Apart "$\x7bmissing:$\x7bk\x7d\x7d\x7d$".toList (forKey "missing").toList ∧
      oneValue.HasOutcome ("$\x7bmissing:$\x7bk\x7d\x7d\x7d$" ++ "k$\x7bk\x7d") (.ok "v\x7d$kv") ∧
      oneValue.HasOutcome ("$\x7bmissing:$\x7bk\x7d\x7d\x7d$" ++ forKey "missing") (.error (.unresolvable "missing" "")) := by
  have hsteady : oneValue.Steady := steady_of_isRandom (by decide)
  have hclosed : Closed "$\x7bmissing:$\x7bk\x7d\x7d\x7d$".toList := by decide +kernel
  have hapart : Apart "$\x7bmissing:$\x7bk\x7d\x7d\x7d$".toList "k$\x7bk\x7d".toList := by decide +kernel
  have hapart' : Apart "$\x7bmissing:$\x7bk\x7d\x7d\x7d$".toList (forKey "missing").toList := by decide +kernel
  have hfirst : oneValue.HasOutcome "$\x7bmissing:$\x7bk\x7d\x7d\x7d$" (.ok "v\x7d$") := ⟨avoids_ok _, 4, by decide +kernel⟩
  have hsecond : oneValue.HasOutcome "k$\x7bk\x7d" (.ok "kv") := ⟨avoids_ok _, 4, by decide +kernel⟩
  have hfailing : oneValue.HasOutcome (forKey "missing") (.error (.unresolvable "missing" "")) :=
    ⟨avoids_error_iff.mpr rfl, 4, by decide +kernel⟩
  exact ⟨hsteady, hclosed, hapart, hapart', ((outcomes_of_append oneValue hsteady _ _ hclosed hapart).1 _).mpr ⟨_, _, hfirst, hsecond, rfl⟩,
    ((outcomes_of_append oneValue hsteady _ _ hclosed hapart').2.1 _).mpr (.inr ⟨⟨_, hfirst⟩, hfailing⟩)⟩

end Environment

end Ignition
