import Ignition.Proofs.Discovery.Shifts

/-!
# The order of passes

The passes that wait are a stack: whoever comes to wait later has its pass earlier. Two invariants along the shifts of a search say so. A
profile that came to wait while another one did has had its pass begun, or waits ahead of the other one as long as this one waits
(`Precedes`). And the profiles that a list newly lets wait, but for the one whose pass is going on, wait in the order of the list until
their passes begin (`InLine`). At the end of a search nothing waits, so the passes have begun in these orders (`cascade_of_run`).
-/

namespace Ignition

namespace Discovery

open Progress
open Relation (ReflTransGen)

variable {plan : SearchPlan} {resources : Resources} {env : Environment}

/-! ## Who waits ahead of whom -/

section Precedes

variable {p q : Progress} {new : List Profile} {kept : List (Option Profile)} {a b : String} {waiting rest : List (Option Profile)}
  {m m' : Moment} {names : List String}

/-- A profile waits, and does not only stand in, ahead of every entry of another one. -/
def Ahead (a b : String) (waiting : List (Option Profile)) : Prop :=
  ∃ above profile below, waiting = above ++ some profile :: below ∧ profile.name = a ∧ profile.standsIn = false ∧
    ∀ other, some other ∈ above → other.name ≠ b

/-- Whoever is ahead of a profile is next, or is behind one that is not this profile. -/
theorem Ahead.head {profile : Profile} (h : Ahead a b (some profile :: rest)) :
    profile.name = a ∨ profile.name ≠ b ∧ Ahead a b rest := by
  obtain ⟨above, ahead, below, heq, hname, hexplicit, habove⟩ := h
  cases above with
  | nil =>
    cases heq
    exact .inl hname
  | cons first above =>
    obtain ⟨rfl, rfl⟩ := List.cons.inj heq
    exact .inr ⟨habove profile List.mem_cons_self, above, ahead, below, rfl, hname, hexplicit,
      fun other ho => habove other (List.mem_cons_of_mem _ ho)⟩

/-- Whoever is ahead of a profile that waits stays ahead of it when others come to wait. -/
theorem Ahead.queues (h : Ahead a b p.waiting) (hqueues : Queues p q new kept) (hb : p.Awaits b) : Ahead a b q.waiting := by
  obtain ⟨above, ahead, below, heq, hname, hexplicit, habove⟩ := h
  have hkept : Ahead a b kept := by
    rcases hqueues.kept with hkept | hkept
    · exact ⟨above, ahead, below, hkept.trans heq, hname, hexplicit, habove⟩
    · refine ⟨above.filter (!standsIn ·), ahead, below.filter (!standsIn ·), ?_, hname, hexplicit,
        fun other ho => habove other (List.mem_filter.mp ho).1⟩
      rw [hkept, heq, List.filter_append, List.filter_cons_of_pos (by simp [standsIn, hexplicit])]
  obtain ⟨above, ahead, below, heq, hname, hexplicit, habove⟩ := hkept
  refine ⟨new.map some ++ above, ahead, below, ?_, hname, hexplicit, fun other ho => ?_⟩
  · rw [hqueues.waiting, heq, List.append_assoc]
  · rcases List.mem_append.mp ho with ho | ho
    · exact hqueues.name_ne hb other ((List.mem_map_of_injective (Option.some_injective _)).mp ho)
    · exact habove other ho

/-- Whoever comes to wait while a profile does is ahead of it. -/
theorem Queues.ahead (h : Queues p q new kept) (hb : p.Awaits b) (hnot : ¬p.Awaits a) (ha : q.Awaits a) : Ahead a b q.waiting := by
  have hexplicit : ∀ profile ∈ new, profile.standsIn = false := by
    refine h.explicit.resolve_right fun hempty => ?_
    obtain ⟨profile, hw, -⟩ := hb
    rw [hempty] at hw
    cases hw
  obtain ⟨profile, hw, rfl⟩ := ha
  rw [h.waiting, List.mem_append] at hw
  rcases hw with hw | hw
  · have hp : profile ∈ new := (List.mem_map_of_injective (Option.some_injective _)).mp hw
    obtain ⟨above, below, rfl⟩ := List.append_of_mem hp
    refine ⟨above.map some, profile, below.map some ++ kept, ?_, rfl, hexplicit profile hp, fun other ho => ?_⟩
    · rw [h.waiting, List.map_append, List.append_assoc]
      rfl
    · exact h.name_ne hb other (List.mem_append_left _ ((List.mem_map_of_injective (Option.some_injective _)).mp ho))
  · exact absurd ⟨profile, h.kept_subset hw, rfl⟩ hnot

/-- The pass for a profile has begun, or it waits ahead of another one. -/
def Precedes (a b : String) (m : Moment) : Prop :=
  some a ∈ m.begun ∨ Ahead a b m.progress.waiting

/-- Whoever comes to wait while another profile does precedes it. -/
theorem Effect.precedes (h : Effect m names m') (hb : m.Awaits b) (hnot : ¬m.Awaits a) (ha : m'.Awaits a) : Precedes a b m' := by
  cases h with
  | queued hqueues _ => exact .inr (hqueues.ahead hb hnot ha)
  | aside hwaiting _ _ _ =>
    rw [Moment.Awaits, Progress.Awaits, hwaiting] at ha
    exact absurd ha hnot
  | finished => exact absurd ha hnot
  | skipped hw _ | begun hw _ =>
    obtain ⟨profile, hmem, hname⟩ := ha
    exact absurd ⟨profile, hw ▸ List.mem_cons_of_mem _ hmem, hname⟩ hnot

/-- Whoever precedes a profile that waits does so behind a shift. -/
theorem Precedes.effect (hprecedes : Precedes a b m) (hsound : Sound m) (h : Effect m names m') (hb : m.Awaits b) :
    Precedes a b m' := by
  rcases hprecedes with hbegun | hahead
  · obtain ⟨more, hmore⟩ := h.begun_eq
    exact .inl (hmore ▸ List.mem_append_left _ hbegun)
  · cases h with
    | queued hqueues _ => exact .inr (hahead.queues hqueues hb)
    | aside hwaiting _ _ _ => exact .inr (hwaiting ▸ hahead)
    | finished => exact .inr hahead
    | skipped hw hold =>
      rcases (hw ▸ hahead : Ahead a b (some _ :: _)).head with rfl | ⟨-, hrest⟩
      · exact .inl (hsound.processed _ (ProfileSet.contains_iff.mp hold))
      · exact .inr hrest
    | begun hw _ =>
      rcases (hw ▸ hahead : Ahead a b (some _ :: _)).head with rfl | ⟨-, hrest⟩
      · refine .inl ?_
        rw [begun_beginning]
        exact List.mem_append_right _ (List.mem_singleton_self _)
      · exact .inr hrest

/-- What waits ahead of a profile stays ahead of it through a course in which this one waits. -/
theorem Precedes.course (hprecedes : Precedes a b m) (hsound : Sound m) (h : WaitingCourse plan resources env b m m') :
    Precedes a b m' := by
  have hboth : Precedes a b m' ∧ Sound m' := by
    induction h with
    | refl => exact ⟨hprecedes, hsound⟩
    | tail _ hshift ih =>
      obtain ⟨hb, names, hshift⟩ := hshift
      exact ⟨ih.1.effect ih.2 hshift.effect hb, ih.2.effect hshift.effect⟩
  exact hboth.1

/-- When the pass for a profile begins, the one for another profile that precedes it has begun. -/
theorem Effect.mem_begun (h : Effect m names m') (hbetween : m.stage = .between) (hwithin : m'.stage = .within (some b))
    (hne : a ≠ b) (hprecedes : Precedes a b m) : some a ∈ m.begun ∧ m'.begun = m.begun ++ [some b] := by
  cases h with
  | queued _ _ =>
    cases hbetween
    cases hwithin
  | aside _ _ _ hcurrent =>
    have hnone : m.current = none := by rw [Moment.current, hbetween]
    have hsome : m'.current = some b := by rw [Moment.current, hwithin]
    rcases hcurrent with hsame | hnot
    · cases hsome.symm.trans (hsame.trans hnone)
    · cases hsome.symm.trans hnot
  | finished => cases hbetween
  | skipped _ _ => cases hwithin
  | begun hw _ =>
    cases hwithin
    refine ⟨hprecedes.resolve_right fun hahead => ?_, begun_beginning _ _ _⟩
    rcases (hw ▸ hahead : Ahead a _ (some _ :: _)).head with hname | ⟨hself, -⟩
    · exact hne hname.symm
    · exact hself rfl

end Precedes

/-! ## Profiles that wait in line -/

section InLine

variable {p q : Progress} {new : List Profile} {kept : List (Option Profile)} {todo : List String} {m m' : Moment} {names : List String}

/-- Whether a pass is for one of some profiles. -/
def isFor (names : List String) (pass : Option Profile) : Bool :=
  pass.any fun profile => names.contains profile.name

theorem isFor_some {profile : Profile} : isFor names (some profile) = true ↔ profile.name ∈ names := by
  rw [isFor, Option.any_some, List.contains_iff_mem]

/-- Of profiles that wait in order, those behind the first one do. -/
theorem filter_isFor_tail {name : String} {later : List String} {rest : List (Option Profile)}
    (h : rest.filter (isFor (name :: later)) = later.map fun name => some { name }) :
    rest.filter (isFor later) = later.map fun name => some { name } := by
  have hsame : ∀ pass ∈ rest, isFor later pass = (isFor later pass && isFor (name :: later) pass) := by
    intro pass _
    cases pass with
    | none => rfl
    | some profile =>
      rw [Bool.eq_iff_iff, Bool.and_eq_true, isFor_some, isFor_some]
      exact ⟨fun hmem => ⟨hmem, List.mem_cons_of_mem _ hmem⟩, And.left⟩
  rw [List.filter_congr hsame, ← List.filter_filter, h]
  refine List.filter_eq_self.mpr fun pass hpass => ?_
  obtain ⟨other, ho, rfl⟩ := List.mem_map.mp hpass
  exact isFor_some.mpr ho

/-- Some profiles wait in order, each of them once and none only standing in; neither have they had their passes, nor is one of them
going on. -/
structure InLine (todo : List String) (m : Moment) : Prop where
  /-- The passes for them wait in order. -/
  line : m.progress.waiting.filter (isFor todo) = todo.map fun name => some { name }
  /-- They have not had their passes. -/
  unprocessed : ∀ name ∈ todo, name ∉ m.progress.processed.names
  /-- No pass for one of them is going on. -/
  notCurrent : ∀ name ∈ todo, m.current ≠ some name
  /-- None of them is there twice. -/
  nodup : todo.Nodup

theorem inLine_nil (m : Moment) : InLine [] m := by
  refine ⟨List.filter_eq_nil_iff.mpr fun pass _ hfor => ?_, nofun, nofun, List.nodup_nil⟩
  cases pass <;> simp [isFor] at hfor

/-- Profiles in line wait. -/
theorem InLine.awaits (h : InLine todo m) : ∀ name ∈ todo, m.Awaits name := by
  intro name hname
  have hmem : some { name } ∈ m.progress.waiting.filter (isFor todo) := by
    rw [h.line]
    exact List.mem_map_of_mem hname
  exact ⟨_, (List.mem_filter.mp hmem).1, rfl⟩

/-- Profiles in line stay so when others come to wait. -/
theorem InLine.queues {stage : Stage} (h : InLine todo ⟨stage, p⟩) (hqueues : Queues p q new kept) : InLine todo ⟨stage, q⟩ := by
  refine ⟨?_, fun name hname => ?_, h.notCurrent, h.nodup⟩
  · have hnew : (new.map some).filter (isFor todo) = [] := by
      refine List.filter_eq_nil_iff.mpr fun pass hpass hfor => ?_
      obtain ⟨profile, hp, rfl⟩ := List.mem_map.mp hpass
      exact hqueues.name_ne (h.awaits profile.name (isFor_some.mp hfor)) profile hp rfl
    have hkept : kept.filter (isFor todo) = todo.map fun name => some { name } := by
      rcases hqueues.kept with rfl | rfl
      · exact h.line
      · rw [List.filter_comm, show p.waiting.filter (isFor todo) = _ from h.line]
        exact List.filter_eq_self.mpr fun pass hpass => by
          obtain ⟨name, -, rfl⟩ := List.mem_map.mp hpass
          rfl
    rw [hqueues.waiting, List.filter_append, hnew, hkept]
    rfl
  · rw [hqueues.processed]
    exact h.unprocessed name hname

/-- When the next pass begins, profiles in line stay so, or it is the pass for the first of them. -/
theorem InLine.begun {profile : Profile} {rest : List (Option Profile)} (hline : InLine todo ⟨.between, p⟩)
    (hw : p.waiting = some profile :: rest) :
    InLine todo ⟨.within (some profile.name), beginning p profile rest⟩ ∨
      ∃ later, todo = profile.name :: later ∧ InLine later ⟨.within (some profile.name), beginning p profile rest⟩ := by
  have hall := hline.line
  rw [show Progress.waiting _ = _ from hw] at hall
  by_cases hfor : isFor todo (some profile) = true
  · rw [List.filter_cons_of_pos hfor] at hall
    obtain ⟨name, later, rfl, hfirst, hrest⟩ := List.map_eq_cons_iff.mp hall.symm
    obtain rfl : { name } = profile := Option.some.inj hfirst
    obtain ⟨hnot, hnodup⟩ := List.nodup_cons.mp hline.nodup
    refine .inr ⟨later, rfl, filter_isFor_tail hrest.symm, fun other ho => hline.unprocessed other (List.mem_cons_of_mem _ ho), ?_,
      hnodup⟩
    rintro other ho hself
    obtain rfl := Option.some.inj hself
    exact hnot ho
  · rw [List.filter_cons_of_neg hfor] at hall
    refine .inl ⟨hall, hline.unprocessed, fun name hname hself => ?_, hline.nodup⟩
    obtain rfl := Option.some.inj hself
    exact hfor (isFor_some.mpr hname)

/-- Profiles in line stay so behind a shift, or the pass for the first one begins. -/
theorem InLine.effect (hline : InLine todo m) (h : Effect m names m') :
    InLine todo m' ∨ ∃ name later, todo = name :: later ∧ InLine later m' ∧ m'.begun = m.begun ++ [some name] := by
  cases h with
  | queued hqueues _ => exact .inl (hline.queues hqueues)
  | aside hwaiting hprocessed _ hcurrent =>
    refine .inl ⟨hwaiting ▸ hline.line, hprocessed ▸ hline.unprocessed, fun name hname => ?_, hline.nodup⟩
    rcases hcurrent with hsame | hnone
    · rw [hsame]
      exact hline.notCurrent name hname
    · rw [hnone]
      exact nofun
  | finished =>
    refine .inl ⟨hline.line, fun name hname hmem => ?_, nofun, hline.nodup⟩
    rcases ProfileSet.mem_names_insert.mp hmem with hmem | rfl
    · exact hline.unprocessed name hname hmem
    · exact hline.notCurrent _ hname rfl
  | @skipped p profile rest hw hold =>
    refine .inl ⟨?_, hline.unprocessed, nofun, hline.nodup⟩
    have hnot : ¬isFor todo (some profile) = true := fun hfor =>
      hline.unprocessed profile.name (isFor_some.mp hfor) (ProfileSet.contains_iff.mp hold)
    have hall := hline.line
    rw [show Progress.waiting _ = _ from hw, List.filter_cons_of_neg hnot] at hall
    exact hall
  | begun hw _ =>
    refine (hline.begun hw).imp_right ?_
    rintro ⟨later, rfl, hlater⟩
    exact ⟨_, later, rfl, hlater, begun_beginning _ _ _⟩

/-- In the course of a search the passes for the first profiles in line begin in order, and the others stay in line. -/
theorem InLine.course (hline : InLine todo m) (h : Course plan resources env m m') :
    ∃ gone left more, todo = gone ++ left ∧ InLine left m' ∧ m'.begun = m.begun ++ more ∧ (gone.map some).Sublist more := by
  induction h with
  | refl => exact ⟨[], todo, [], rfl, hline, (List.append_nil _).symm, .slnil⟩
  | tail _ hshift ih =>
    obtain ⟨names, hshift⟩ := hshift
    obtain ⟨gone, left, more, rfl, hleft, hbegun, hgone⟩ := ih
    rcases hleft.effect hshift.effect with hleft | ⟨name, later, rfl, hlater, hnext⟩
    · obtain ⟨last, hlast⟩ := hshift.effect.begun_eq
      refine ⟨gone, left, more ++ last, rfl, hleft, ?_, hgone.trans (List.sublist_append_left _ _)⟩
      rw [hlast, hbegun, List.append_assoc]
    · refine ⟨gone ++ [name], later, more ++ [some name], List.append_cons .., hlater, ?_, ?_⟩
      · rw [hnext, hbegun, List.append_assoc]
      · rw [List.map_append]
        exact hgone.append (.refl _)

/-- Where nothing waits any more, the passes for profiles in line have begun in order. -/
theorem InLine.done (hline : InLine todo m) (h : Course plan resources env m m') (hdone : m'.progress.waiting = []) :
    (todo.map some).Sublist (m'.begun.drop m.begun.length) := by
  obtain ⟨gone, left, more, rfl, hleft, hbegun, hgone⟩ := hline.course h
  have hnil : left = [] := by
    have hall := hleft.line
    rw [hdone] at hall
    exact List.map_eq_nil_iff.mp hall.symm
  rw [hnil, List.append_nil, hbegun, List.drop_left]
  exact hgone

/-- Profiles that come to wait, and do not only stand in, wait in order; so do those of them that a condition picks. -/
theorem filter_map_some (hexplicit : ∀ profile ∈ new, profile.standsIn = false) (picked : String → Bool) :
    (new.map some).filter (isFor ((new.map (·.name)).filter picked)) =
      ((new.map (·.name)).filter picked).map fun name => some { name } := by
  have hfor : ∀ profile ∈ new, isFor ((new.map (·.name)).filter picked) (some profile) = picked profile.name := by
    intro profile hp
    have hmem : profile.name ∈ (new.map (·.name)).filter picked ↔ picked profile.name = true :=
      List.mem_filter.trans (and_iff_right (List.mem_map_of_mem hp))
    rw [Bool.eq_iff_iff, isFor_some, hmem]
  have hpicked : (new.map some).filter (isFor ((new.map (·.name)).filter picked)) = (new.filter (picked ·.name)).map some := by
    rw [List.filter_map]
    exact congrArg (List.map some) (List.filter_congr hfor)
  rw [hpicked, List.filter_map, List.map_map]
  refine List.map_congr_left fun profile hp => ?_
  rw [Function.comp_apply, ← hexplicit profile (List.mem_filter.mp hp).1]

/-- The profiles of a list that come to be known are in line behind the shift, but for the one whose pass is going on. -/
theorem Effect.inLine (h : Effect m names m') :
    InLine ((entrants m.progress m'.progress names).filter (some · ≠ m.current)) m' := by
  cases h with
  | @queued stage p q _ new kept hqueues hlabel =>
    rcases hlabel with rfl | ⟨hentrants, hnodup, hexplicit⟩
    · exact inLine_nil _
    · have hunknown : ∀ name ∈ new.map (·.name), p.knows name = false := by
        intro name hname
        obtain ⟨profile, hp, rfl⟩ := List.mem_map.mp hname
        exact hqueues.unknown profile hp
      rw [hentrants]
      refine ⟨?_, fun name hname => ?_, fun name hname => ?_, ?_⟩
      · have hkept : kept.filter (isFor ((new.map (·.name)).filter (some · ≠ Moment.current ⟨stage, p⟩))) = [] := by
          refine List.filter_eq_nil_iff.mpr fun pass hpass hfor => ?_
          cases pass with
          | none => cases hfor
          | some profile =>
            have hname : profile.name ∈ new.map (·.name) := (List.mem_filter.mp (isFor_some.mp hfor)).1
            exact (knows_eq_false_iff.mp (hunknown _ hname)).2 ⟨profile, hqueues.kept_subset hpass, rfl⟩
        rw [hqueues.waiting, List.filter_append, filter_map_some hexplicit, hkept, List.append_nil]
      · rw [hqueues.processed]
        exact (knows_eq_false_iff.mp (hunknown name (List.mem_filter.mp hname).1)).1
      · exact fun hself => (of_decide_eq_true (List.mem_filter.mp hname).2) hself.symm
      · rw [← hentrants]
        exact (hnodup.filter _).filter _
  | aside | finished | skipped | begun => exact inLine_nil _

end InLine

/-- A profile comes to wait while another one does, and this one goes on waiting until its pass begins. -/
inductive Overtakes (plan : SearchPlan) (resources : Resources) (env : Environment) (a b : String) (next : Moment) : Prop where
  | intro {m m' m'' : Moment} {names others : List String} :
      Course plan resources env (outset env) m → Shift plan resources env m names m' →
      m.Awaits b → ¬m.Awaits a → m'.Awaits a →
      WaitingCourse plan resources env b m' m'' → Shift plan resources env m'' others next →
      m''.stage = .between → next.stage = .within (some b) → Overtakes plan resources env a b next

/-- A profile that overtakes another one has its pass begun when that of the other one begins. -/
theorem Overtakes.begun_eq {a b : String} {next : Moment} (h : Overtakes plan resources env a b next) (hne : a ≠ b) :
    ∃ before, next.begun = before ++ [some b] ∧ some a ∈ before := by
  cases h with
  | intro hcourse hshift hb hnot ha hwaiting hbegins hbetween hwithin =>
    have hsound := (sound_outset.course hcourse).effect hshift.effect
    have hprecedes := (hshift.effect.precedes hb hnot ha).course hsound hwaiting
    obtain ⟨hmem, hnext⟩ := hbegins.effect.mem_begun hbetween hwithin hne hprecedes
    exact ⟨_, hnext, hmem⟩

/-- A search that came to its end was led there by shifts from where it set out, to where nothing waits. In the course of it, if a profile
comes to wait while another one does, and this one goes on waiting until its pass begins, the pass of the former is earlier. Of the
profiles in a list, those that it newly lets wait get their passes behind this in the order of the list, but for the one whose pass is
going on. So do all of the first list that the search binds: the profiles that the environment includes and behind them the others that it
declares. -/
theorem cascade_of_run (discovery : Discovery) (resources : Resources) (env : Environment) (found : Discovered)
    (h : (discovery.run resources env).result = .ok found) :
    ∃ plan finish, discovery.plan env = .ok plan ∧ Course plan resources env (outset env) finish ∧
      finish.progress.waiting = [] ∧ finish.begun = Milestone.passes (discovery.run resources env).history ∧
      (∀ a b next, a ≠ b → Overtakes plan resources env a b next → Course plan resources env next finish →
        ∃ before after, finish.begun = before ++ some b :: after ∧ some a ∈ before) ∧
      (∀ m names m', Course plan resources env (outset env) m → Shift plan resources env m names m' →
        Course plan resources env m' finish →
          (((entrants m.progress m'.progress names).filter (some · ≠ m.current)).map some).Sublist
            (finish.begun.drop m'.begun.length)) ∧
      ∃ names first, names = env.included ++ env.declared.filter (· ∉ env.included) ∧
        Shift plan resources env (outset env) names first ∧ Course plan resources env first finish ∧
        (names.map some).Sublist finish.begun := by
  obtain ⟨plan, start, finish, hrun⟩ := run_eq_ok h
  obtain ⟨first, hfirst, hcourse⟩ := hrun.course
  refine ⟨plan, ⟨.between, finish⟩, hrun.plan_eq, .head ⟨_, hfirst⟩ hcourse, hrun.done, ?_, ?_, ?_, ?_⟩
  · rw [hrun.history]
    rfl
  · intro a b next hne hovertakes hrest
    obtain ⟨before, hnext, hmem⟩ := hovertakes.begun_eq hne
    obtain ⟨after, hafter⟩ := hrest.begun_eq
    refine ⟨before, after, ?_, hmem⟩
    rw [hafter, hnext, List.append_assoc]
    rfl
  · intro m names m' _ hshift hrest
    exact hshift.effect.inLine.done hrest hrun.done
  · have hline := hfirst.effect.inLine
    rw [entrants_outset hfirst, List.filter_eq_self.mpr fun _ _ => decide_eq_true nofun] at hline
    exact ⟨_, first, rfl, hfirst, hcourse, (hline.done hcourse hrun.done).trans (List.drop_sublist _ _)⟩

/-- An environment that declares two profiles and includes the last of them, and where another one is active. -/
def declaring : Environment where
  layers := [Layer.ofEntries "base" [(Key.activeProfiles, "x,y"), (Key.includedProfiles, "y")]]
  active := ["z"]

/-- Files of which the first includes two profiles and that of the first one a third. -/
def cascadingFiles : Resources :=
  Resources.ofList [("classpath:/application.properties", "liftoff.profiles.include=a,b"),
    ("classpath:/application-a.properties", "liftoff.profiles.include=c")]

/-- The profile that is active comes to wait when the declared and the included one do already, and overtakes the latter. -/
theorem overtakes_declaring (plan : SearchPlan) (resources : Resources) :
    ∃ next, Overtakes plan resources declaring "z" "y" next := by
  let included : ProfileSet := ⟨[{ name := "y" }]⟩
  let declared : ProfileSet := ⟨[{ name := "x" }, { name := "y" }]⟩
  let first := (outset declaring).progress.request (included.extend declared.profiles)
  let seeded := first.enqueue (["z"].map fun name => { name })
  let opened := seeded.reach (.pass none)
  let begun := beginning opened { name := "z" } [some { name := "y" }, some { name := "x" }]
  let finished := { begun with processed := begun.processed.insert { name := "z" } }
  have hasked : Shift plan resources declaring (outset declaring) _ ⟨.seeding, first⟩ :=
    @Shift.asked plan resources declaring _ included declared (by decide +kernel) (by decide +kernel)
  have hseeded : Shift plan resources declaring ⟨.seeding, first⟩ [] ⟨.seeding, seeded⟩ := .others (by decide +kernel)
  have hbegun : Shift plan resources declaring ⟨.between, opened⟩ [] ⟨.within (some "z"), begun⟩ :=
    @Shift.begun plan resources declaring opened { name := "z" } _ (by decide +kernel) (by decide +kernel)
  have hnext : Shift plan resources declaring ⟨.between, finished⟩ [] ⟨.within (some "y"), beginning finished { name := "y" } _⟩ :=
    @Shift.begun plan resources declaring finished { name := "y" } [some { name := "x" }] rfl (by decide +kernel)
  have hwaits : ∀ p : Progress, some { name := "y" } ∈ p.waiting → p.Awaits "y" := fun _ hmem => ⟨_, hmem, rfl⟩
  have hopened : opened.Awaits "y" := hwaits opened (by decide +kernel)
  have hwaiting : WaitingCourse plan resources declaring "y" ⟨.seeding, seeded⟩ ⟨.between, finished⟩ :=
    .tail (.tail (.tail (.tail .refl ⟨hopened, _, .opened⟩) ⟨hopened, _, .closed⟩) ⟨hopened, _, hbegun⟩)
      ⟨hwaits begun List.mem_cons_self, _, @Shift.finished plan resources declaring begun { name := "z" }⟩
  have hnot : ¬first.Awaits "z" := by
    rintro ⟨profile, hmem, hname⟩
    have hall : ∀ pass ∈ first.waiting, pass.any (·.name = "z") = false := by decide +kernel
    exact absurd (hall _ hmem) (by simp [hname])
  exact ⟨_, .intro (.single ⟨_, hasked⟩) hseeded (hwaits first (by decide +kernel)) hnot
    ⟨{ name := "z" }, by decide +kernel, rfl⟩ hwaiting hnext rfl rfl⟩

/-- Whoever comes to wait later has its pass earlier, and the included profile comes before the one that is only declared. -/
theorem cascade_of_run_cascadingFiles :
    let found : Discovered :=
      { loaded := ["applicationConfig: [classpath:/application.properties]",
          "applicationConfig: [classpath:/application-a.properties]"]
        processed := ["a", "c", "b", "z", "y", "x"] }
    (searchOfRoot.run cascadingFiles declaring).result = .ok found ∧
      Milestone.passes (searchOfRoot.run cascadingFiles declaring).history = none :: found.processed.map some ∧
      (["y", "x"].map some).Sublist (Milestone.passes (searchOfRoot.run cascadingFiles declaring).history) ∧
      ∃ plan finish, searchOfRoot.plan declaring = .ok plan ∧ Course plan cascadingFiles declaring (outset declaring) finish ∧
        finish.begun = none :: found.processed.map some ∧ finish.progress.waiting = [] ∧
        ∃ next, Overtakes plan cascadingFiles declaring "z" "y" next := by
  intro found
  have hrun : (searchOfRoot.run cascadingFiles declaring).result = .ok found := by decide +kernel
  have hpasses : Milestone.passes (searchOfRoot.run cascadingFiles declaring).history = none :: found.processed.map some := by
    decide +kernel
  have hlist : declaring.included ++ declaring.declared.filter (· ∉ declaring.included) = ["y", "x"] := by decide +kernel
  obtain ⟨plan, finish, hplan, hcourse, hdone, hbegun, -, -, names, _, hnames, -, -, hlists⟩ := cascade_of_run _ _ _ _ hrun
  rw [hnames, hlist] at hlists
  exact ⟨hrun, hpasses, hbegun ▸ hlists, plan, finish, hplan, hcourse, hbegun.trans hpasses, hdone,
    overtakes_declaring plan cascadingFiles⟩

end Discovery

end Ignition
