import Ignition.Proofs.Config.Calls

/-!
# Circular and endless placeholders

Keys whose values are being expanded are kept so that a circular placeholder is found. A *plain* expansion (`expandPlainly`) keeps none of
them and is bounded only by its depth. The two agree wherever an expansion is not circular (`expandPlainly_eq`), and where it is, the plain
one goes on for ever (`plainly_unending_of_circular`); so every circle that is found is one. Not every expansion that goes on for ever is a
circle, though: a fallback may come to hold the placeholder that it stands in (`endless_not_circular_restoring`), and then neither of the
two ends (`circular_or_endless_iff`).
-/

namespace Ignition

open Placeholder

/-- Whether a circle is at fault. -/
def PlaceholderError.isCircular : PlaceholderError → Bool
  | .circular _ _ => true
  | .unresolvable _ _ | .tooDeep _ => false

/-- The text that an error names. -/
def PlaceholderError.text : PlaceholderError → String
  | .unresolvable _ text | .circular _ text | .tooDeep text => text

namespace Environment

section Plain

variable {env : Environment} {whole : String} {depth depth' : Nat} {visiting : List String} {text body : List Char} {key : String}
  {fallback : Option (List Char)}

/-! ## Plain expansions -/

/-- The plain expansion of a text, with at most `depth` nested expansions: in the same order, but no key is kept. -/
def expandPlainly (env : Environment) (whole : String) : (depth : Nat) → List Char → Except PlaceholderError (List Char)
  | 0, _ => .error (.tooDeep whole)
  | depth + 1, text => do
    let parts ← (pieces text).mapM fun
      | .literal part => pure part
      | .placeholder body => do
        let (key, fallback) := keyAndFallback (← env.expandPlainly whole depth body)
        match env.get? key, fallback with
        | some value, _ => env.expandPlainly whole depth value.toList
        | none, some fallback => env.expandPlainly whole depth fallback
        | none, none => throw (.unresolvable key whole)
    pure parts.flatten

/-- A plain expansion goes part by part, as any expansion does before a key is kept. -/
theorem expandPlainly_succ : env.expandPlainly whole (depth + 1) text =
    ((pieces text).mapM (env.expandPiece whole (fun _ => env.expandPlainly whole depth) [])).map List.flatten := by
  have hparts : ∀ part : Piece → Except PlaceholderError (List Char),
      (∀ piece, part piece = env.expandPiece whole (fun _ => env.expandPlainly whole depth) [] piece) →
      (do let parts ← (pieces text).mapM part; pure parts.flatten) =
        ((pieces text).mapM (env.expandPiece whole (fun _ => env.expandPlainly whole depth) [])).map List.flatten := by
    intro part hpart
    rw [funext hpart]
    cases (pieces text).mapM (env.expandPiece whole (fun _ => env.expandPlainly whole depth) []) <;> rfl
  exact hparts _ fun piece => by cases piece <;> rfl

/-- More depth changes nothing about a plain expansion that is finished. -/
theorem expandPlainly_of_le [env.Steady] (hle : depth ≤ depth') (h : Finished (env.expandPlainly whole depth text)) :
    env.expandPlainly whole depth' text = env.expandPlainly whole depth text := by
  induction depth generalizing depth' text with
  | zero => exact absurd (h _ rfl) Bool.noConfusion
  | succ depth ih =>
    obtain ⟨deeper, rfl⟩ : ∃ deeper, depth' = deeper + 1 := Nat.exists_eq_succ_of_ne_zero (Nat.ne_zero_of_lt hle)
    rw [expandPlainly_succ] at h ⊢
    rw [expandPlainly_succ]
    rw [(avoids_map_iff.mp h).mapM_congr fun piece hpiece => expandPiece_congr hpiece fun _ _ => ih (Nat.le_of_succ_le_succ hle)]

theorem not_finished_expandPlainly_zero : ¬Finished (env.expandPlainly whole 0 text) := fun h => Bool.noConfusion (h _ rfl)

/-! ## Where the two agree -/

/-- A part stands for the same in a plain expansion unless a circle is found in it. -/
theorem expandPiece_plainly {expand : List String → List Char → Except PlaceholderError (List Char)}
    {plainly : List Char → Except PlaceholderError (List Char)} {piece : Piece}
    (h : Avoids PlaceholderError.isCircular (env.expandPiece whole expand visiting piece))
    (hexpand : ∀ visiting text, Avoids PlaceholderError.isCircular (expand visiting text) → plainly text = expand visiting text) :
    env.expandPiece whole (fun _ => plainly) [] piece = env.expandPiece whole expand visiting piece := by
  cases piece with
  | literal part => rfl
  | placeholder body =>
    refine h.bind_congr (hexpand visiting body) fun expanded _ hkey => ?_
    generalize keyAndFallback expanded = asked at hkey ⊢
    obtain ⟨key, fallback⟩ := asked
    simp only [expandKey] at hkey ⊢
    by_cases hkept : visiting.contains key = true
    · rw [if_pos hkept] at hkey
      exact absurd (hkey _ rfl) Bool.noConfusion
    · rw [if_neg hkept] at hkey ⊢
      rw [if_neg (by simp)]
      cases hvalue : env.get? key with
      | some value =>
        rw [hvalue] at hkey
        exact hexpand (key :: visiting) value.toList hkey
      | none =>
        rw [hvalue] at hkey
        cases fallback with
        | some fallback => exact hexpand visiting fallback hkey
        | none => rfl

/-- An expansion in which no circle is found has the same outcome as the plain one. -/
theorem expandPlainly_eq [env.Steady] (h : Avoids PlaceholderError.isCircular (env.expandWithin whole depth visiting text)) :
    env.expandPlainly whole depth text = env.expandWithin whole depth visiting text := by
  induction depth generalizing visiting text with
  | zero => rfl
  | succ depth ih =>
    rw [expandWithin_succ_of_steady] at h ⊢
    rw [expandPlainly_succ]
    rw [(avoids_map_iff.mp h).mapM_congr fun piece hpiece => expandPiece_plainly hpiece fun _ _ => ih]

/-- The error of an expansion names the whole text. -/
theorem text_of_expandWithin [env.Steady] {error : PlaceholderError} (h : env.expandWithin whole depth visiting text = .error error) :
    error.text = whole := by
  have hnames : ∀ depth visiting text,
      Avoids (fun error => decide (error.text ≠ whole)) (env.expandWithin whole depth visiting text) := by
    intro depth
    induction depth with
    | zero => exact fun _ _ => avoids_error_iff.mpr (by simp [PlaceholderError.text])
    | succ depth ih =>
      intro visiting text
      rw [expandWithin_succ_of_steady]
      refine avoids_map_iff.mpr (Avoids.mapM fun piece _ => ?_)
      cases piece with
      | literal part => exact avoids_ok part
      | placeholder body =>
        refine (ih visiting body).bind fun expanded => ?_
        simp only [expandKey]
        split
        · exact avoids_error_iff.mpr (by simp [PlaceholderError.text])
        · split
          · exact ih _ _
          · exact ih _ _
          · exact avoids_error_iff.mpr (by simp [PlaceholderError.text])
  simpa using hnames depth visiting text error h

end Plain

/-! ## Calls of plain expansions -/

section Calls

variable {env : Environment} [env.Steady] {whole : String} {depth : Nat} {e e' : Expanding} {body : List Char} {key : String}
  {fallback : Option (List Char)}

/-- What an expansion reaches is finished in the plain expansion where that is. -/
theorem Reaches.finished_plainly (h : env.Reaches whole e body)
    (hfinished : Finished (env.expandPlainly whole (depth + 1) e.text)) :
    Finished (env.expandPiece whole (fun _ => env.expandPlainly whole depth) [] (.placeholder body)) := by
  obtain ⟨before, after, reached, parts, hpieces, hbefore⟩ := h
  have hplainly : before.mapM (env.expandPiece whole (fun _ => env.expandPlainly whole reached) []) = .ok parts := by
    rw [← hbefore]
    exact (hbefore ▸ avoids_ok parts : Avoids PlaceholderError.isCircular (before.mapM _)).mapM_congr fun _ hpiece =>
      expandPiece_plainly hpiece fun _ _ => expandPlainly_eq
  rw [expandPlainly_succ, hpieces] at hfinished
  exact finished_of_reached
    (fun depth => env.expandPiece whole (fun _ => env.expandPlainly whole depth) [])
    (fun hle hpiece => expandPiece_congr hpiece fun _ _ => expandPlainly_of_le hle) hplainly (avoids_map_iff.mp hfinished)

/-- What a key that an expansion asks for stands for is finished in the plain expansion where that is. -/
theorem Asks.finished_plainly (h : env.Asks whole e key fallback)
    (hfinished : Finished (env.expandPlainly whole (depth + 1) e.text)) :
    Finished (env.expandKey whole (fun _ => env.expandPlainly whole depth) [] key fallback) := by
  obtain ⟨body, named, expanded, hreaches, hexpanded, hkey⟩ := h
  have hpiece : Finished (env.expandPlainly whole depth body >>= fun expanded =>
    env.expandKey whole (fun _ => env.expandPlainly whole depth) [] (keyAndFallback expanded).1 (keyAndFallback expanded).2) :=
    hreaches.finished_plainly hfinished
  have hnamed : env.expandPlainly whole named body = .ok expanded :=
    (expandPlainly_eq (hexpanded ▸ avoids_ok expanded)).trans hexpanded
  have hbody : env.expandPlainly whole depth body = .ok expanded := by
    rcases Nat.le_total named depth with hle | hle
    · rw [expandPlainly_of_le hle (hnamed ▸ avoids_ok expanded), hnamed]
    · rw [← expandPlainly_of_le hle hpiece.of_bind, hnamed]
  rw [hbody] at hpiece
  have hasked : Finished (env.expandKey whole (fun _ => env.expandPlainly whole depth) [] (keyAndFallback expanded).1
    (keyAndFallback expanded).2) := hpiece
  rwa [hkey] at hasked

/-- What an expansion calls for is finished in the plain expansion, at a depth less by one, where that is. -/
theorem Calls.finished_plainly (h : env.Calls whole e e') (hfinished : Finished (env.expandPlainly whole (depth + 1) e.text)) :
    Finished (env.expandPlainly whole depth e'.text) := by
  cases h with
  | body hreaches => exact (hreaches.finished_plainly hfinished).of_bind
  | value hasks hnew hvalue =>
    have hkey := hasks.finished_plainly hfinished
    rwa [expandKey_of_value hvalue List.not_mem_nil] at hkey
  | fallback hfalls =>
    obtain ⟨key, fallback, hasks, hnew, hmissing, rfl⟩ := hfalls
    have hkey := hasks.finished_plainly hfinished
    rwa [expandKey_of_missing hmissing List.not_mem_nil] at hkey

end Calls

/-! ## Circles -/

section Circles

variable {env : Environment} [env.Steady] {whole named : String} {depth : Nat} {e e' : Expanding} {key : String}

/-- An error of a placeholder arises in what is called for, or it is about the key asked for. -/
theorem exists_of_expandWithin_error {error : PlaceholderError}
    (h : env.expandWithin whole (depth + 1) e.visiting e.text = .error error) :
    (∃ e', env.Calls whole e e' ∧ env.expandWithin whole depth e'.visiting e'.text = .error error) ∨
      ∃ key fallback, env.Asks whole e key fallback ∧
        (key ∈ e.visiting ∧ error = .circular key whole ∨ key ∉ e.visiting ∧ error = .unresolvable key whole) := by
  rw [expandWithin_succ_of_steady] at h
  obtain ⟨before, piece, after, parts, hpieces, hbefore, hpiece⟩ := exists_of_mapM_error (eq_error_of_map h)
  cases piece with
  | literal part => cases hpiece
  | placeholder body =>
    have hreaches : env.Reaches whole e body := ⟨before, after, depth, parts, hpieces, hbefore⟩
    cases hbody : env.expandWithin whole depth e.visiting body with
    | error other =>
      simp only [expandPiece, hbody] at hpiece
      cases hpiece
      exact Or.inl ⟨_, .body hreaches, hbody⟩
    | ok expanded =>
      have hasks : env.Asks whole e (keyAndFallback expanded).1 (keyAndFallback expanded).2 :=
        ⟨body, depth, expanded, hreaches, hbody, rfl⟩
      have hkey : env.expandKey whole (env.expandWithin whole depth) e.visiting (keyAndFallback expanded).1
          (keyAndFallback expanded).2 = .error error := by
        simp only [expandPiece, hbody] at hpiece
        exact hpiece
      generalize (keyAndFallback expanded).1 = key, (keyAndFallback expanded).2 = fallback at hasks hkey
      by_cases hnew : key ∈ e.visiting
      · unfold expandKey at hkey
        rw [if_pos (List.contains_iff_mem.mpr hnew)] at hkey
        cases hkey
        exact Or.inr ⟨key, fallback, hasks, Or.inl ⟨hnew, rfl⟩⟩
      · cases hvalue : env.get? key with
        | some value =>
          rw [expandKey_of_value hvalue hnew] at hkey
          exact Or.inl ⟨_, .value hasks hnew hvalue, hkey⟩
        | none =>
          cases fallback with
          | some fallback =>
            rw [expandKey_of_missing hvalue hnew] at hkey
            exact Or.inl ⟨_, .fallback ⟨key, fallback, hasks, hnew, hvalue, rfl⟩, hkey⟩
          | none =>
            simp only [expandKey, List.contains_iff_mem, hnew, if_false, hvalue] at hkey
            cases hkey
            exact Or.inr ⟨key, none, hasks, Or.inr ⟨hnew, rfl⟩⟩

/-- The keys kept are keys with values. -/
def KeepsAnswered (env : Environment) (e : Expanding) : Prop :=
  ∀ key ∈ e.visiting, env.get? key ≠ none

omit [env.Steady] in
/-- What is called for keeps only keys with values, too. -/
theorem Calls.keepsAnswered (h : env.Calls whole e e') (hkeeps : env.KeepsAnswered e) : env.KeepsAnswered e' := by
  cases h with
  | body => exact hkeeps
  | value hasks hnew hvalue =>
    intro other ho
    rcases List.mem_cons.mp ho with rfl | ho
    · rw [hvalue]
      exact Option.some_ne_none _
    · exact hkeeps other ho
  | fallback hfalls =>
    obtain ⟨key, fallback, -, -, -, rfl⟩ := hfalls
    exact hkeeps

/-- Where a circle is found through a key, the plain expansion comes to expand the value of the key. -/
theorem exists_value_of_circular (h : env.expandWithin whole depth e.visiting e.text = .error (.circular key named))
    (hkeeps : env.KeepsAnswered e) : ∃ value, env.get? key = some value ∧
      ∀ more, Finished (env.expandPlainly whole more e.text) → ∃ fewer < more, Finished (env.expandPlainly whole fewer value.toList) := by
  induction depth generalizing e with
  | zero => cases h
  | succ depth ih =>
    rcases exists_of_expandWithin_error h with ⟨e', hcall, he'⟩ | ⟨other, fallback, hasks, ⟨hkept, herror⟩ | ⟨-, herror⟩⟩
    · obtain ⟨value, hvalue, hmore⟩ := ih he' (hcall.keepsAnswered hkeeps)
      refine ⟨value, hvalue, fun more hfinished => ?_⟩
      cases more with
      | zero => exact absurd hfinished not_finished_expandPlainly_zero
      | succ more =>
        obtain ⟨fewer, hfewer, hfinished'⟩ := hmore more (hcall.finished_plainly hfinished)
        exact ⟨fewer, Nat.lt_succ_of_lt hfewer, hfinished'⟩
    · cases herror
      obtain ⟨value, hvalue⟩ := Option.ne_none_iff_exists'.mp (hkeeps key hkept)
      refine ⟨value, hvalue, fun more hfinished => ?_⟩
      cases more with
      | zero => exact absurd hfinished not_finished_expandPlainly_zero
      | succ more =>
        have hkey := hasks.finished_plainly hfinished
        rw [expandKey_of_value hvalue List.not_mem_nil] at hkey
        exact ⟨more, Nat.lt_succ_self more, hkey⟩
    · cases herror

/-- A circle that is found through a key is one: the key was kept from the beginning, or the plain expansion has no end. -/
theorem plainly_unending_of_circular (h : env.expandWithin whole depth e.visiting e.text = .error (.circular key named))
    (hkeeps : env.KeepsAnswered e) : key ∈ e.visiting ∨ ∀ more, ¬Finished (env.expandPlainly whole more e.text) := by
  induction depth generalizing e with
  | zero => cases h
  | succ depth ih =>
    rcases exists_of_expandWithin_error h with ⟨e', hcall, he'⟩ | ⟨other, fallback, hasks, ⟨hkept, herror⟩ | ⟨-, herror⟩⟩
    · have hgoesOn : (∀ more, ¬Finished (env.expandPlainly whole more e'.text)) →
          ∀ more, ¬Finished (env.expandPlainly whole more e.text) := by
        intro hun more hfinished
        cases more with
        | zero => exact not_finished_expandPlainly_zero hfinished
        | succ more => exact hun more (hcall.finished_plainly hfinished)
      rcases ih he' (hcall.keepsAnswered hkeeps) with hkept | hun
      · cases hcall with
        | body => exact Or.inl hkept
        | fallback hfalls =>
          obtain ⟨other, fallback, -, -, -, rfl⟩ := hfalls
          exact Or.inl hkept
        | @value other value fallback hasks hnew hvalue =>
          rcases List.mem_cons.mp hkept with rfl | hkept
          · -- The value of the key expands the value of the key, each time at less depth.
            obtain ⟨value', hvalue', hless⟩ := exists_value_of_circular he' (Calls.keepsAnswered (.value hasks hnew hvalue) hkeeps)
            cases hvalue.symm.trans hvalue'
            refine Or.inr (hgoesOn fun more => ?_)
            induction more using Nat.strong_induction_on with
            | _ more ih =>
              intro hfinished
              obtain ⟨fewer, hfewer, hfinished'⟩ := hless more hfinished
              exact ih fewer hfewer hfinished'
          · exact Or.inl hkept
      · exact Or.inr (hgoesOn hun)
    · cases herror
      exact Or.inl hkept
    · cases herror

end Circles

/-! ## The outcomes of expansions -/

/-- The plain expansion of a text with its placeholders, under a limit on its depth. -/
def plain (env : Environment) (depth : Nat) (text : String) : Except PlaceholderError String :=
  (env.expandPlainly text depth text.toList).map String.ofList

section Outcomes

variable {env : Environment} {depth : Nat} {text : String}

/-- What an expansion avoids, that of the characters of the text does. -/
theorem avoids_expand_deepen_iff {kind : PlaceholderError → Bool} :
    Avoids kind ((env.deepen depth).expand text) ↔ Avoids kind (env.expandWithin text depth [] text.toList) := by
  rw [expand_deepen_eq]
  exact avoids_map_iff

section Steady

variable [env.Steady]

/-- No key is kept at the beginning, so a circle that is found keeps the plain expansion from ending. -/
theorem not_finished_plain_of_circular {key named : String} (h : (env.deepen depth).expand text = .error (.circular key named))
    (more : Nat) : ¬Finished (env.plain more text) := by
  rw [expand_deepen_eq] at h
  have hunending := @plainly_unending_of_circular env _ text named depth { visiting := [], text := text.toList } key
    (eq_error_of_map h) fun _ hkept => absurd hkept List.not_mem_nil
  exact fun hfinished => (hunending.resolve_left List.not_mem_nil) more (avoids_map_iff.mp hfinished)

/-- Where no circle is found, the plain expansion does the same. -/
theorem plain_eq (h : Avoids PlaceholderError.isCircular ((env.deepen depth).expand text)) :
    env.plain depth text = (env.deepen depth).expand text := by
  rw [plain, expandPlainly_eq (avoids_expand_deepen_iff.mp h), expand_deepen_eq]

/-- An expansion has a circle, or the plain one does the same. -/
theorem circular_or_plain_eq (env : Environment) [env.Steady] (depth : Nat) (text : String) :
    (∃ key named, (env.deepen depth).expand text = .error (.circular key named)) ∨
      env.plain depth text = (env.deepen depth).expand text := by
  cases houtcome : (env.deepen depth).expand text with
  | ok expanded =>
    exact Or.inr ((plain_eq (houtcome ▸ avoids_ok expanded)).trans houtcome)
  | error error =>
    cases error with
    | circular key named => exact Or.inl ⟨key, named, rfl⟩
    | unresolvable key named =>
      exact Or.inr ((plain_eq (houtcome ▸ avoids_error_iff.mpr rfl)).trans houtcome)
    | tooDeep named =>
      exact Or.inr ((plain_eq (houtcome ▸ avoids_error_iff.mpr rfl)).trans houtcome)

/-- An outcome that neither a limit nor a circle brought about is that of some expansion exactly if it is that of some plain one. -/
theorem exists_expand_iff_exists_plain {outcome : Except PlaceholderError String} (hfinished : Finished outcome)
    (hcircular : Avoids PlaceholderError.isCircular outcome) :
    (∃ depth, (env.deepen depth).expand text = outcome) ↔ ∃ depth, env.plain depth text = outcome := by
  constructor
  · rintro ⟨depth, rfl⟩
    exact ⟨depth, plain_eq hcircular⟩
  · rintro ⟨depth, rfl⟩
    rcases circular_or_plain_eq env depth text with ⟨key, named, hkey⟩ | hsame
    · exact absurd hfinished (not_finished_plain_of_circular hkey depth)
    · exact ⟨depth, hsame.symm⟩

/-- An endless expansion keeps the plain one from ending. -/
theorem not_finished_plain_of_endless (h : env.Endless text) (depth : Nat) : ¬Finished (env.plain depth text) := by
  rcases circular_or_plain_eq env depth text with ⟨key, named, hkey⟩ | hsame
  · exact not_finished_plain_of_circular hkey depth
  · rw [hsame]
    exact fun hfinished => h depth (avoids_expand_deepen_iff.mp hfinished)

/-- The plain expansion has no end exactly if a circle is found or the expansion has no end. -/
theorem circular_or_endless_iff :
    ((∃ depth key, (env.deepen depth).expand text = .error (.circular key text)) ∨ env.Endless text) ↔
      ∀ depth, ¬Finished (env.plain depth text) := by
  constructor
  · rintro (⟨depth, key, hkey⟩ | hendless)
    · exact not_finished_plain_of_circular hkey
    · exact not_finished_plain_of_endless hendless
  · intro h
    by_cases hendless : env.Endless text
    · exact Or.inr hendless
    · obtain ⟨depth, hdepth⟩ := not_forall_not.mp hendless
      rcases circular_or_plain_eq env depth text with ⟨key, named, hkey⟩ | hsame
      · have hnamed : named = text := by
          rw [expand_deepen_eq] at hkey
          exact text_of_expandWithin (eq_error_of_map hkey)
        exact Or.inl ⟨depth, key, hnamed ▸ hkey⟩
      · exact absurd (hsame ▸ avoids_expand_deepen_iff.mpr hdepth) (h depth)

end Steady

/-- In an environment without random values, the expansion of a text succeeds, or fails for a key without a value, exactly if the plain
one does so, with the same text or for the same key. A circle is found, or the expansion goes on for ever, exactly if the plain expansion
exhausts every depth. The expansion goes on for ever exactly if it calls for other ones without an end, coming to fallbacks again and again;
and it never does so where each dollar sign in the text and in the values belongs to a placeholder that is closed. -/
theorem outcomes_of_expand (env : Environment) (text : String) (hrandom : ∀ layer ∈ env.layers, layer.isRandom = false) :
    (∀ expanded, (∃ depth, (env.deepen depth).expand text = .ok expanded) ↔ ∃ depth, env.plain depth text = .ok expanded) ∧
      (∀ key, (∃ depth, (env.deepen depth).expand text = .error (.unresolvable key text)) ↔
        ∃ depth, env.plain depth text = .error (.unresolvable key text)) ∧
      (((∃ depth key, (env.deepen depth).expand text = .error (.circular key text)) ∨ env.Endless text) ↔
        ∀ depth, ¬Finished (env.plain depth text)) ∧
      (env.Endless text ↔ ∃ chain : Nat → Expanding, chain 0 = { visiting := [], text := text.toList } ∧
        (∀ i, env.Calls text (chain i) (chain (i + 1))) ∧ ∀ n, ∃ i ≥ n, env.FallsBack text (chain i) (chain (i + 1))) ∧
      (Tidy text.toList → (∀ key value, env.get? key = some value → Tidy value.toList) → ¬env.Endless text) := by
  have hsteady := steady_of_isRandom hrandom
  have hfinite := finite_answered hrandom
  refine ⟨fun expanded => ?_, fun key => ?_, circular_or_endless_iff, ?_, ?_⟩
  · exact exists_expand_iff_exists_plain (avoids_ok expanded) (avoids_ok expanded)
  · exact exists_expand_iff_exists_plain (avoids_error_iff.mpr rfl) (avoids_error_iff.mpr rfl)
  · refine Iff.trans (@unending_iff_exists_calls env text { visiting := [], text := text.toList } hsteady) ?_
    constructor
    · rintro ⟨chain, hfirst, hchain⟩
      exact ⟨chain, hfirst, hchain, exists_fallback_after hfinite hchain⟩
    · rintro ⟨chain, hfirst, hchain, -⟩
      exact ⟨chain, hfirst, hchain⟩
  · intro htidy hvalues hendless
    exact @not_unending_of_tidy env text { visiting := [], text := text.toList } hsteady hfinite hvalues htidy hendless

end Outcomes

/-- Values of which one expands to a placeholder with the fallback that it stands in. -/
def restoring : Environment where
  layers := [Layer.ofEntries "values" [("d", "$"), ("k", "$\x7bd\x7d\x7bx:$\x7bd\x7d\x7bk\x7d\x7d")]]

instance : restoring.Steady :=
  steady_of_isRandom (by decide)

/-- The placeholder that its own expansion restores. -/
def restored : String := "$\x7bx:$\x7bk\x7d\x7d"

/-- The placeholder that its own expansion restores has no end. -/
theorem endless_restored : restoring.Endless restored := by
  have hbody : restoring.expandWithin restored 3 [] "x:$\x7bk\x7d".toList = .ok "x:$\x7bx:$\x7bk\x7d\x7d".toList := by decide +kernel
  exact endless_of_restored (by decide +kernel) hbody (by decide +kernel : _ = ("x", some _)) (by decide +kernel)

/-- So its expansion calls for fallbacks again and again. -/
theorem outcomes_of_expand_restoring : (∀ layer ∈ restoring.layers, layer.isRandom = false) ∧
    ∃ chain : Nat → Expanding, chain 0 = { visiting := [], text := restored.toList } ∧
      (∀ i, restoring.Calls restored (chain i) (chain (i + 1))) ∧
      ∀ n, ∃ i ≥ n, restoring.FallsBack restored (chain i) (chain (i + 1)) := by
  have hrandom : ∀ layer ∈ restoring.layers, layer.isRandom = false := by decide
  exact ⟨hrandom, (outcomes_of_expand restoring restored hrandom).2.2.2.1.mp endless_restored⟩

/-- The plain expansion exhausts every depth, but no circle is found: the expansion does not end. -/
theorem endless_not_circular_restoring : (∀ depth, ¬Finished (restoring.plain depth restored)) ∧
    (∀ depth, ¬Finished ((restoring.deepen depth).expand restored)) ∧
    ∀ depth key, (restoring.deepen depth).expand restored ≠ .error (.circular key restored) := by
  have hunfinished : ∀ depth, ¬Finished ((restoring.deepen depth).expand restored) :=
    fun depth hfinished => endless_restored depth (avoids_expand_deepen_iff.mp hfinished)
  refine ⟨not_finished_plain_of_endless endless_restored, hunfinished, fun depth key hcircular => ?_⟩
  refine hunfinished depth ?_
  rw [hcircular]
  exact avoids_error_iff.mpr rfl

end Environment

end Ignition
