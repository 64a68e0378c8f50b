import Ignition.Run.Application
import Mathlib.Data.List.Induction

/-!
# The order of priorities

Observers and runners are put in order when they are needed, and initializers each time that one more is given. All of them come out in
the same way: in ascending order of their priorities, and among equals in the order in which they were given (`InPriorityOrder`). There
is one such order only (`InPriorityOrder.unique`), so that it makes no difference how often one sorts (`byPriority_concat`).
-/

namespace Ignition

variable {α : Type} {priority : α → Int} {given ordered other : List α} {a : α} {p : Int}

/-! ## Stable order -/

/-- Things stand in ascending order of their priorities, and among equals in the order in which they were given. -/
structure InPriorityOrder (priority : α → Int) (given ordered : List α) : Prop where
  /-- They are the things that were given. -/
  perm : ordered.Perm given
  /-- None stands behind one of a higher priority. -/
  ascending : ordered.Pairwise fun a b => priority a ≤ priority b
  /-- Those of one priority are in the order in which they were given. -/
  stable : ∀ p, ordered.filter (priority · = p) = given.filter (priority · = p)

/-- Sorting by priority puts all in the order of priorities. Those of one priority are sorted as they stand, so sorting keeps them as a
part. -/
theorem inPriorityOrder_byPriority (priority : α → Int) (given : List α) :
    InPriorityOrder priority given (byPriority priority given) := by
  have htrans (a b c : α) (hab : decide (priority a ≤ priority b) = true) (hbc : decide (priority b ≤ priority c) = true) :
      decide (priority a ≤ priority c) = true :=
    decide_eq_true (Int.le_trans (of_decide_eq_true hab) (of_decide_eq_true hbc))
  have htotal (a b : α) : (decide (priority a ≤ priority b) || decide (priority b ≤ priority a)) = true := by
    simpa using Int.le_total (priority a) (priority b)
  have hperm : (byPriority priority given).Perm given := List.mergeSort_perm ..
  refine ⟨hperm, (List.pairwise_mergeSort htrans htotal given).imp of_decide_eq_true, fun p => ?_⟩
  have hequal : (given.filter (priority · = p)).Pairwise fun a b => decide (priority a ≤ priority b) = true := by
    refine List.pairwise_of_forall_mem_list fun a ha b hb => decide_eq_true (Int.le_of_eq ?_)
    exact (of_decide_eq_true (List.mem_filter.mp ha).2).trans (of_decide_eq_true (List.mem_filter.mp hb).2).symm
  have hsublist : List.Sublist (given.filter (priority · = p)) (byPriority priority given) :=
    List.sublist_mergeSort htrans htotal hequal List.filter_sublist
  have hfiltered := hsublist.filter (priority · = p)
  simp only [List.filter_filter, Bool.and_self] at hfiltered
  exact (hfiltered.eq_of_length (hperm.filter _).length_eq.symm).symm

/-- The first of some things in ascending order has the lowest priority. -/
theorem priority_head_le {rest : List α} (h : (a :: rest).Pairwise fun a b => priority a ≤ priority b) {b : α} (hb : b ∈ a :: rest) :
    priority a ≤ priority b := by
  rcases List.mem_cons.mp hb with rfl | hrest
  · exact Int.le_refl _
  · exact (List.pairwise_cons.mp h).1 b hrest

/-- Things are the same if those of each priority are. -/
theorem mem_iff_of_filter_eq (h : ∀ p, ordered.filter (priority · = p) = other.filter (priority · = p)) (a : α) :
    a ∈ ordered ↔ a ∈ other := by
  have hiff := congrArg (a ∈ ·) (h (priority a))
  simpa using hiff

/-- Things in ascending order also stand in the same order if those of each priority do. -/
theorem eq_of_filter_eq (h : ordered.Pairwise fun a b => priority a ≤ priority b)
    (hother : other.Pairwise fun a b => priority a ≤ priority b)
    (hfilter : ∀ p, ordered.filter (priority · = p) = other.filter (priority · = p)) : ordered = other := by
  induction ordered generalizing other with
  | nil => exact (List.eq_nil_iff_forall_not_mem.mpr fun a ha => nomatch (mem_iff_of_filter_eq hfilter a).mpr ha).symm
  | cons a rest ih =>
    have hmem := mem_iff_of_filter_eq hfilter
    cases other with
    | nil => nomatch (hmem a).mp List.mem_cons_self
    | cons b others =>
      have hpriority : priority b = priority a :=
        Int.le_antisymm (priority_head_le hother ((hmem a).mp List.mem_cons_self))
          (priority_head_le h ((hmem b).mpr List.mem_cons_self))
      have hheads := hfilter (priority a)
      simp only [List.filter_cons, hpriority, decide_true, if_true] at hheads
      obtain ⟨rfl, hsame⟩ := List.cons.inj hheads
      have hrest (p : Int) : rest.filter (priority · = p) = others.filter (priority · = p) := by
        have hp := hfilter p
        by_cases hap : priority a = p
        · exact hap ▸ hsame
        · simpa only [List.filter_cons, decide_eq_false hap, Bool.false_eq_true, if_false] using hp
      rw [ih (List.pairwise_cons.mp h).2 (List.pairwise_cons.mp hother).2 hrest]

/-- There is one order only. -/
theorem InPriorityOrder.unique (h : InPriorityOrder priority given ordered) (hother : InPriorityOrder priority given other) :
    ordered = other :=
  eq_of_filter_eq h.ascending hother.ascending fun p => (h.stable p).trans (hother.stable p).symm

/-- It makes no difference whether the others were sorted before one more is given. -/
theorem byPriority_concat (priority : α → Int) (given : List α) (a : α) :
    byPriority priority (byPriority priority given ++ [a]) = byPriority priority (given ++ [a]) := by
  have hgiven := inPriorityOrder_byPriority priority given
  have hboth := inPriorityOrder_byPriority priority (byPriority priority given ++ [a])
  refine InPriorityOrder.unique ⟨hboth.perm.trans (hgiven.perm.append_right [a]), hboth.ascending, fun p => ?_⟩
    (inPriorityOrder_byPriority priority (given ++ [a]))
  rw [hboth.stable p, List.filter_append, List.filter_append, hgiven.stable p]

/-! ## Registrations -/

variable {σ : Type}

/-- What an application is given to take part in its runs. -/
inductive Registration (σ : Type) where
  /-- An observer. -/
  | observer (given : Observer σ)
  /-- An initializer. -/
  | initializer (given : Initializer σ)

namespace Registration

/-- The observer that is given. -/
def observer? : Registration σ → Option (Observer σ)
  | .observer given => some given
  | .initializer _ => none

/-- The initializer that is given. -/
def initializer? : Registration σ → Option (Initializer σ)
  | .observer _ => none
  | .initializer given => some given

/-- Gives it to an application. -/
def apply (app : Application σ) : Registration σ → Application σ
  | .observer given => app.withObserver given
  | .initializer given => app.withInitializer given

end Registration

/-- An application without observers and initializers, after it was given some. -/
def Application.registered (base : Application σ) (registrations : List (Registration σ)) : Application σ :=
  registrations.foldl Registration.apply { base with observers := [], initializers := [] }

/-- Observers are kept as they were given, and initializers in the order of their priorities. -/
theorem Application.registered_eq (base : Application σ) (registrations : List (Registration σ)) :
    base.registered registrations =
      { base with
        observers := registrations.filterMap Registration.observer?
        initializers := byPriority (·.priority) (registrations.filterMap Registration.initializer?) } := by
  induction registrations using List.reverseRecOn with
  | nil => simp [registered, byPriority]
  | append_singleton registrations registration ih =>
    rw [registered] at ih ⊢
    rw [List.foldl_append, List.foldl_cons, List.foldl_nil, ih, List.filterMap_append, List.filterMap_append]
    cases registration with
    | observer given =>
      simp [Registration.apply, withObserver, List.filterMap_cons, Registration.observer?, Registration.initializer?]
    | initializer given =>
      simp [Registration.apply, withInitializer, List.filterMap_cons, Registration.observer?, Registration.initializer?,
        byPriority_concat]

end Ignition
