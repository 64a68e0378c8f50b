import Mathlib.Data.List.Basic

/-!
# Steps in sequence

A step is taken for each item of a list in turn, and the first one that fails ends them. They succeed exactly if each of them does
(`exists_mapM_ok_iff`), and the error of steps that fail is that of a step with nothing but steps that succeed before it
(`exists_of_mapM_error`).
-/

namespace Ignition

section Sequence

variable {ε α β : Type} {items before after : List α} {a : α} {step : α → Except ε β} {answers : List β} {error : ε}

/-- Steps for a list succeed exactly if the first one does and the others do. -/
theorem mapM_cons_eq_ok_iff :
    (a :: items).mapM step = .ok answers ↔ ∃ b bs, step a = .ok b ∧ items.mapM step = .ok bs ∧ answers = b :: bs := by
  rw [List.mapM_cons]
  cases step a with
  | error problem => exact iff_of_false nofun fun ⟨_, _, h, _⟩ => nomatch h
  | ok b =>
    cases items.mapM step with
    | error problem => exact iff_of_false nofun fun ⟨_, _, _, h, _⟩ => nomatch h
    | ok bs =>
      constructor
      · rintro ⟨⟩
        exact ⟨b, bs, rfl, rfl, rfl⟩
      · rintro ⟨_, _, ⟨⟩, ⟨⟩, rfl⟩
        rfl

/-- They fail as the first one that fails. -/
theorem mapM_cons_eq_error_iff :
    (a :: items).mapM step = .error error ↔ step a = .error error ∨ ∃ b, step a = .ok b ∧ items.mapM step = .error error := by
  rw [List.mapM_cons]
  cases step a with
  | error problem =>
    constructor
    · rintro ⟨⟩
      exact .inl rfl
    · rintro (⟨⟨⟩⟩ | ⟨_, ⟨⟩, _⟩)
      rfl
  | ok b =>
    cases items.mapM step with
    | error problem =>
      constructor
      · rintro ⟨⟩
        exact .inr ⟨b, rfl, rfl⟩
      · rintro (⟨⟨⟩⟩ | ⟨_, _, ⟨⟩⟩)
        rfl
    | ok bs => exact iff_of_false nofun (by rintro (h | ⟨_, _, h⟩) <;> cases h)

/-- Steps succeed exactly if each of them does. -/
theorem exists_mapM_ok_iff : (∃ answers, items.mapM step = .ok answers) ↔ ∀ a ∈ items, ∃ b, step a = .ok b := by
  induction items with
  | nil => exact iff_of_true ⟨[], rfl⟩ fun _ h => absurd h List.not_mem_nil
  | cons a items ih =>
    rw [List.forall_mem_cons, ← ih]
    constructor
    · rintro ⟨answers, h⟩
      obtain ⟨b, bs, hb, hbs, -⟩ := mapM_cons_eq_ok_iff.mp h
      exact ⟨⟨b, hb⟩, bs, hbs⟩
    · rintro ⟨⟨b, hb⟩, bs, hbs⟩
      exact ⟨b :: bs, mapM_cons_eq_ok_iff.mpr ⟨b, bs, hb, hbs, rfl⟩⟩

/-- Behind steps that succeed, the next one decides. -/
theorem mapM_append_of_ok (h : before.mapM step = .ok answers) : (before ++ a :: after).mapM step =
    (step a >>= fun b => after.mapM step >>= fun bs => .ok (answers ++ b :: bs)) := by
  rw [List.mapM_append, h, List.mapM_cons]
  cases step a with
  | error error => rfl
  | ok b => cases after.mapM step <;> rfl

/-- Steps that fail do so at some item, behind steps that succeed. -/
theorem exists_of_mapM_error (h : items.mapM step = .error error) :
    ∃ before a after answers, items = before ++ a :: after ∧ before.mapM step = .ok answers ∧ step a = .error error := by
  induction items with
  | nil => cases h
  | cons a items ih =>
    rcases mapM_cons_eq_error_iff.mp h with hstep | ⟨b, hb, hitems⟩
    · exact ⟨[], a, items, [], rfl, rfl, hstep⟩
    · obtain ⟨before, c, after, answers, rfl, hbefore, hc⟩ := ih hitems
      exact ⟨a :: before, c, after, b :: answers, rfl, mapM_cons_eq_ok_iff.mpr ⟨b, answers, hb, hbefore, rfl⟩, hc⟩

/-- What steps that succeed answer, each step answers for its item. -/
theorem exists_of_mem_mapM (h : items.mapM step = .ok answers) : ∀ b ∈ answers, ∃ a ∈ items, step a = .ok b := by
  induction items generalizing answers with
  | nil =>
    cases h
    exact fun _ hb => absurd hb List.not_mem_nil
  | cons a items ih =>
    obtain ⟨first, others, hfirst, hothers, rfl⟩ := mapM_cons_eq_ok_iff.mp h
    intro b hb
    rcases List.mem_cons.mp hb with rfl | hb
    · exact ⟨a, List.mem_cons_self, hfirst⟩
    · obtain ⟨other, ho, hother⟩ := ih hothers b hb
      exact ⟨other, List.mem_cons_of_mem a ho, hother⟩

end Sequence

end Ignition
