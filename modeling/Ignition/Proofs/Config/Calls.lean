import Ignition.Proofs.Config.Keys
import Ignition.Proofs.Config.Scanning
import Ignition.Proofs.Sequence
import Mathlib.Order.Filter.AtTopBot.Basic
import Mathlib.Data.Set.Card

/-!
# What an expansion calls for

What an expansion asks for on the way is a chain of expansions, each called for by the one before (`Calls`), and an expansion without an
end has such a chain without an end (`unending_iff_exists_calls`). In it, fallbacks are expanded again and again
(`exists_fallback_after`), since bodies get shorter and the keys that are answered are used up. Where each dollar sign belongs to a
placeholder that is closed, a fallback has none when it is expanded, and every expansion ends (`not_unending_of_tidy`).
-/

namespace Ignition

open Placeholder

/-! ## Steps one after the other -/

section MapM

variable {ε α β : Type} {kind : ε → Bool} {step : α → Except ε β}

/-- A value that is worked on further plays no part in an error. -/
theorem eq_error_of_map {outcome : Except ε α} {f : α → β} {error : ε} (h : outcome.map f = .error error) : outcome = .error error := by
  cases outcome with
  | error other => cases h; rfl
  | ok a => cases h

/-- Steps for the items of a list avoid what each of them avoids. -/
theorem Avoids.mapM {items : List α} (h : ∀ a ∈ items, Avoids kind (step a)) : Avoids kind (items.mapM step) := by
  induction items with
  | nil => exact avoids_ok []
  | cons a items ih =>
    rw [List.mapM_cons]
    refine (h a List.mem_cons_self).bind fun b => ?_
    exact (ih fun other ho => h other (List.mem_cons_of_mem _ ho)).bind fun bs => avoids_ok (b :: bs)

end MapM

namespace Environment

/-! ## Calls -/

/-- An expansion that is asked for: the keys whose values are being expanded, and the text. -/
structure Expanding where
  /-- The keys whose values are being expanded. -/
  visiting : List String
  /-- The text to expand. -/
  text : List Char

/-- An expansion comes to a placeholder with some body, because all that stands before it has its expansion. -/
def Reaches (env : Environment) (whole : String) (e : Expanding) (body : List Char) : Prop :=
  ∃ before after depth parts, pieces e.text = before ++ .placeholder body :: after ∧
    before.mapM (env.expandPiece whole (env.expandWithin whole depth) e.visiting) = .ok parts

/-- An expansion comes to ask for a key, perhaps with a fallback, because the body of a placeholder that it reaches names them. -/
def Asks (env : Environment) (whole : String) (e : Expanding) (key : String) (fallback : Option (List Char)) : Prop :=
  ∃ body depth expanded, env.Reaches whole e body ∧ env.expandWithin whole depth e.visiting body = .ok expanded ∧
    keyAndFallback expanded = (key, fallback)

/-- An expansion asks for the expansion of a fallback, because the key has no value. -/
def FallsBack (env : Environment) (whole : String) (e e' : Expanding) : Prop :=
  ∃ key fallback, env.Asks whole e key (some fallback) ∧ key ∉ e.visiting ∧ env.get? key = none ∧
    e' = { visiting := e.visiting, text := fallback }

/-- What an expansion asks for on the way. -/
inductive Calls (env : Environment) (whole : String) (e : Expanding) : Expanding → Prop where
  /-- The body of a placeholder. -/
  | body {body : List Char} : env.Reaches whole e body → Calls env whole e { visiting := e.visiting, text := body }
  /-- The value of a key; the key is kept meanwhile. -/
  | value {key value : String} {fallback : Option (List Char)} :
      env.Asks whole e key fallback → key ∉ e.visiting → env.get? key = some value →
      Calls env whole e { visiting := key :: e.visiting, text := value.toList }
  /-- The fallback of a key without a value. -/
  | fallback {e' : Expanding} : env.FallsBack whole e e' → Calls env whole e e'

/-- An expansion without an end: no depth is enough. -/
def Unending (env : Environment) (whole : String) (e : Expanding) : Prop :=
  ∀ depth, ¬Finished (env.expandWithin whole depth e.visiting e.text)

section Calls

variable {env : Environment} [env.Steady] {whole : String} {depth depth' : Nat} {e e' : Expanding} {before after : List Piece}
  {piece : Piece} {parts : List (List Char)} {body expanded : List Char} {key value : String} {fallback : Option (List Char)}

/-- Of steps whose outcomes more depth does not change, those before some item that succeed at one depth do so at any other at which all
steps are finished; so this item's step is then finished. -/
theorem finished_of_reached (steps : Nat → Piece → Except PlaceholderError (List Char))
    (hsteps : ∀ {depth depth' piece}, depth ≤ depth' → Finished (steps depth piece) → steps depth' piece = steps depth piece)
    (hbefore : before.mapM (steps depth) = .ok parts) (h : Finished ((before ++ piece :: after).mapM (steps depth'))) :
    Finished (steps depth' piece) := by
  have hsame : before.mapM (steps depth') = .ok parts := by
    rcases Nat.le_total depth depth' with hle | hle
    · rw [← hbefore]
      exact (hbefore ▸ avoids_ok parts : Finished (before.mapM (steps depth))).mapM_congr fun _ => hsteps hle
    · have hfinished : Finished (before.mapM (steps depth')) := by
        rw [List.mapM_append] at h
        exact h.of_bind
      rw [← hbefore]
      exact (hfinished.mapM_congr fun _ => hsteps hle).symm
  rw [mapM_append_of_ok hsame] at h
  exact h.of_bind

/-- What an expansion reaches is finished where the expansion is. -/
theorem Reaches.finished (h : env.Reaches whole e body)
    (hfinished : Finished (env.expandWithin whole (depth + 1) e.visiting e.text)) :
    Finished (env.expandPiece whole (env.expandWithin whole depth) e.visiting (.placeholder body)) := by
  obtain ⟨before, after, reached, parts, hpieces, hbefore⟩ := h
  rw [expandWithin_succ_of_steady, hpieces] at hfinished
  exact finished_of_reached
    (fun depth => env.expandPiece whole (env.expandWithin whole depth) e.visiting)
    (fun hle hpiece => expandPiece_congr hpiece fun _ _ => expandWithin_of_le hle) hbefore (avoids_map_iff.mp hfinished)

/-- What a key that an expansion asks for stands for is finished where the expansion is. -/
theorem Asks.finished (h : env.Asks whole e key fallback)
    (hfinished : Finished (env.expandWithin whole (depth + 1) e.visiting e.text)) :
    Finished (env.expandKey whole (env.expandWithin whole depth) e.visiting key fallback) := by
  obtain ⟨body, named, expanded, hreaches, hexpanded, hkey⟩ := h
  have hpiece : Finished (env.expandWithin whole depth e.visiting body >>= fun expanded =>
    env.expandKey whole (env.expandWithin whole depth) e.visiting (keyAndFallback expanded).1 (keyAndFallback expanded).2) :=
    hreaches.finished hfinished
  have hbody : env.expandWithin whole depth e.visiting body = .ok expanded :=
    (expandWithin_unique hpiece.of_bind (hexpanded ▸ avoids_ok expanded)).trans hexpanded
  rw [hbody] at hpiece
  have hasked : Finished (env.expandKey whole (env.expandWithin whole depth) e.visiting (keyAndFallback expanded).1
    (keyAndFallback expanded).2) := hpiece
  rwa [hkey] at hasked

/-- What an expansion calls for is finished, at a depth less by one, where the expansion is. -/
theorem Calls.finished (h : env.Calls whole e e') (hfinished : Finished (env.expandWithin whole (depth + 1) e.visiting e.text)) :
    Finished (env.expandWithin whole depth e'.visiting e'.text) := by
  cases h with
  | body hreaches => exact (hreaches.finished hfinished).of_bind
  | value hasks hnew hvalue =>
    have hkey := hasks.finished hfinished
    rwa [expandKey_of_value hvalue hnew] at hkey
  | fallback hfalls =>
    obtain ⟨key, fallback, hasks, hnew, hmissing, rfl⟩ := hfalls
    have hkey := hasks.finished hfinished
    rwa [expandKey_of_missing hmissing hnew] at hkey

end Calls

/-! ## Expansions without an end -/

section Unending

open Filter (atTop)

variable {env : Environment} {whole : String} {depth : Nat} {e e' : Expanding} {before items : List Piece}
  {parts : List (List Char)} {body : List Char}

/-- An outcome that no limit brought about is that of all greater depths. -/
theorem eventually_expandWithin (h : Finished (env.expandWithin whole depth e.visiting e.text)) :
    ∀ᶠ more in atTop, env.expandWithin whole more e.visiting e.text = env.expandWithin whole depth e.visiting e.text :=
  Filter.eventually_atTop.mpr ⟨depth, fun _ hmore => expandWithin_of_le hmore h⟩

theorem eventually_finished_of_not_unending (h : ¬env.Unending whole e) :
    ∀ᶠ depth in atTop, Finished (env.expandWithin whole depth e.visiting e.text) := by
  obtain ⟨depth, hdepth⟩ := not_forall_not.mp h
  exact (eventually_expandWithin hdepth).mono fun _ hmore => hmore ▸ hdepth

/-- A placeholder that is reached is finished at some depth if all that is called for is. -/
theorem eventually_finished_placeholder (hcalls : ∀ e', env.Calls whole e e' → ¬env.Unending whole e')
    (hreaches : env.Reaches whole e body) :
    ∀ᶠ depth in atTop, Finished (env.expandPiece whole (env.expandWithin whole depth) e.visiting (.placeholder body)) := by
  obtain ⟨named, hnamed⟩ := not_forall_not.mp (hcalls _ (.body hreaches))
  have hbody := eventually_expandWithin hnamed
  cases houtcome : env.expandWithin whole named e.visiting body with
  | error error =>
    refine hbody.mono fun depth hdepth => ?_
    simp only [expandPiece, hdepth, houtcome]
    exact avoids_error_iff.mpr (avoids_error_iff.mp (houtcome ▸ hnamed))
  | ok expanded =>
    have hasks : env.Asks whole e (keyAndFallback expanded).1 (keyAndFallback expanded).2 :=
      ⟨body, named, expanded, hreaches, houtcome, rfl⟩
    have hkey : ∀ᶠ depth in atTop, Finished (env.expandKey whole (env.expandWithin whole depth) e.visiting
        (keyAndFallback expanded).1 (keyAndFallback expanded).2) := by
      generalize (keyAndFallback expanded).1 = key, (keyAndFallback expanded).2 = fallback at hasks
      by_cases hnew : key ∈ e.visiting
      · refine Filter.Eventually.of_forall fun depth => ?_
        unfold expandKey
        rw [if_pos (List.contains_iff_mem.mpr hnew)]
        exact avoids_error_iff.mpr rfl
      · cases hvalue : env.get? key with
        | some value =>
          refine (eventually_finished_of_not_unending (hcalls _ (.value hasks hnew hvalue))).mono fun depth hdepth => ?_
          rwa [expandKey_of_value hvalue hnew]
        | none =>
          cases fallback with
          | some fallback =>
            have hfalls : env.FallsBack whole e { visiting := e.visiting, text := fallback } :=
              ⟨key, fallback, hasks, hnew, hvalue, rfl⟩
            refine (eventually_finished_of_not_unending (hcalls _ (.fallback hfalls))).mono fun depth hdepth => ?_
            rwa [expandKey_of_missing hvalue hnew]
          | none =>
            refine Filter.Eventually.of_forall fun depth => ?_
            simp only [expandKey, List.contains_iff_mem, hnew, if_false, hvalue]
            exact avoids_error_iff.mpr rfl
    refine (hbody.and hkey).mono fun depth hboth => ?_
    obtain ⟨hdepth, hfinished⟩ := hboth
    simp only [expandPiece, hdepth, houtcome]
    exact hfinished

variable [env.Steady]

/-- The parts of a text are finished at some depth if all that is called for is. By induction on the parts: at a depth that is enough for
those before and for one more, the others follow or this one fails. -/
theorem eventually_finished_pieces (hcalls : ∀ e', env.Calls whole e e' → ¬env.Unending whole e')
    (hpieces : pieces e.text = before ++ items)
    (hbefore : before.mapM (env.expandPiece whole (env.expandWithin whole depth) e.visiting) = .ok parts) :
    ∀ᶠ depth in atTop, Finished (items.mapM (env.expandPiece whole (env.expandWithin whole depth) e.visiting)) := by
  induction items generalizing before depth parts with
  | nil => exact Filter.Eventually.of_forall fun _ => avoids_ok []
  | cons piece items ih =>
    have hpiece : ∀ᶠ depth in atTop, Finished (env.expandPiece whole (env.expandWithin whole depth) e.visiting piece) := by
      cases piece with
      | literal part => exact Filter.Eventually.of_forall fun _ => avoids_ok part
      | placeholder body =>
        exact eventually_finished_placeholder hcalls ⟨before, items, depth, parts, hpieces, hbefore⟩
    obtain ⟨enough, henough⟩ := Filter.eventually_atTop.mp hpiece
    have hmore := henough (max depth enough) (Nat.le_max_right _ _)
    have hsame : ∀ more, max depth enough ≤ more → env.expandPiece whole (env.expandWithin whole more) e.visiting piece =
        env.expandPiece whole (env.expandWithin whole (max depth enough)) e.visiting piece :=
      fun more hle => expandPiece_congr hmore fun _ _ => expandWithin_of_le hle
    cases houtcome : env.expandPiece whole (env.expandWithin whole (max depth enough)) e.visiting piece with
    | error error =>
      refine Filter.eventually_atTop.mpr ⟨max depth enough, fun more hle => ?_⟩
      rw [List.mapM_cons, hsame more hle, houtcome]
      exact avoids_error_iff.mpr (avoids_error_iff.mp (houtcome ▸ hmore))
    | ok part =>
      have hbefore' : before.mapM (env.expandPiece whole (env.expandWithin whole (max depth enough)) e.visiting) = .ok parts := by
        rw [← hbefore]
        exact (hbefore ▸ avoids_ok parts : Finished (before.mapM _)).mapM_congr fun _ hfinished =>
          expandPiece_congr hfinished fun _ _ => expandWithin_of_le (Nat.le_max_left _ _)
      have hlonger : (before ++ [piece]).mapM (env.expandPiece whole (env.expandWithin whole (max depth enough)) e.visiting) =
          .ok (parts ++ [part]) := by
        rw [mapM_append_of_ok hbefore', houtcome]
        rfl
      refine (hpiece.and (ih (by rw [hpieces, List.append_assoc]; rfl) hlonger)).mono fun depth ⟨hfirst, hothers⟩ => ?_
      rw [List.mapM_cons]
      exact hfirst.bind fun b => hothers.bind fun bs => avoids_ok (b :: bs)

/-- An expansion without an end calls for another one. -/
theorem Unending.exists_call (h : env.Unending whole e) : ∃ e', env.Calls whole e e' ∧ env.Unending whole e' := by
  by_contra hnone
  have hcalls : ∀ e', env.Calls whole e e' → ¬env.Unending whole e' := fun e' hcall hun => hnone ⟨e', hcall, hun⟩
  obtain ⟨depth, hdepth⟩ := (@eventually_finished_pieces env whole 0 e [] (pieces e.text) [] _ hcalls rfl rfl).exists
  refine h (depth + 1) ?_
  rw [expandWithin_succ_of_steady]
  exact avoids_map_iff.mpr hdepth

/-- An expansion has no end exactly if what it calls for goes on for ever. -/
theorem unending_iff_exists_calls : env.Unending whole e ↔
    ∃ chain : Nat → Expanding, chain 0 = e ∧ ∀ i, env.Calls whole (chain i) (chain (i + 1)) := by
  constructor
  · intro h
    choose next hnext using fun e : {e // env.Unending whole e} => e.2.exists_call
    let follow (e : {e // env.Unending whole e}) : {e // env.Unending whole e} := ⟨next e, (hnext e).2⟩
    refine ⟨fun i => (follow^[i] ⟨e, h⟩).1, rfl, fun i => ?_⟩
    simp only [Function.iterate_succ_apply']
    exact (hnext _).1
  · rintro ⟨chain, rfl, hchain⟩ depth
    induction depth generalizing chain with
    | zero => exact fun h => Bool.noConfusion (h _ rfl)
    | succ depth ih =>
      exact fun hfinished => ih (fun i => chain (i + 1)) (fun i => hchain (i + 1)) ((hchain 0).finished hfinished)

end Unending

/-! ## Fallbacks -/

section Fallbacks

variable {env : Environment} {whole : String} {depth fuel : Nat} {e e' : Expanding} {text body behind : List Char}

/-- A body is shorter than the text that it belongs to. -/
theorem length_lt_of_mem_pieces (h : .placeholder body ∈ pieces text) : body.length < text.length := by
  have hwithin : ∀ fuel text, .placeholder body ∈ piecesWithin fuel text → body.length < text.length := by
    intro fuel text hmem
    fun_induction piecesWithin fuel text with
    | case1 text => simp at hmem
    | case2 => cases hmem
    | case3 fuel c rest hopens body' behind hclosing ih =>
      have hlt := length_lt_of_closing hclosing
      have hdrop : (rest.drop 1).length ≤ rest.length := by simp
      rw [List.length_cons]
      rcases List.mem_cons.mp hmem with heq | hmem
      · cases heq
        omega
      · have hbehind := ih hmem
        omega
    | case4 => simp at hmem
    | case5 fuel c rest hopens ih =>
      rcases List.mem_cons.mp hmem with heq | hmem
      · cases heq
      · exact Nat.lt_succ_of_lt (ih hmem)
  exact hwithin text.length text h

/-- The text that an expansion reaches a placeholder in has this placeholder. -/
theorem Reaches.mem_pieces (h : env.Reaches whole e body) : .placeholder body ∈ pieces e.text := by
  obtain ⟨before, after, depth, parts, hpieces, -⟩ := h
  rw [hpieces]
  exact List.mem_append_right before List.mem_cons_self

/-- What is left of an expansion that calls for no fallback: the keys that are answered and not kept, and then the text. -/
noncomputable def rank (env : Environment) (e : Expanding) : Nat × Nat :=
  ((answered env.get? \ {key | key ∈ e.visiting}).ncard, e.text.length)

/-- What an expansion calls for leaves less of it, unless it is a fallback. -/
theorem Calls.rank_lt (h : env.Calls whole e e') (hfinite : (answered env.get?).Finite) (hnot : ¬env.FallsBack whole e e') :
    Prod.Lex (· < ·) (· < ·) (env.rank e') (env.rank e) := by
  cases h with
  | body hreaches => exact Prod.Lex.right _ (length_lt_of_mem_pieces hreaches.mem_pieces)
  | @value key value fallback hasks hnew hvalue =>
    refine Prod.Lex.left _ _ (Set.ncard_lt_ncard ⟨?_, ?_⟩ (hfinite.subset Set.sdiff_subset))
    · exact Set.sdiff_subset_sdiff_right fun other ho => List.mem_cons_of_mem key ho
    · intro hsubset
      have hkey : key ∈ answered env.get? \ {key | key ∈ e.visiting} := ⟨by simp [answered, hvalue], hnew⟩
      exact (hsubset hkey).2 List.mem_cons_self
  | fallback hfalls => exact absurd hfalls hnot

/-- Calls that go on for ever come to a fallback. -/
theorem exists_fallback (hfinite : (answered env.get?).Finite) (chain : Nat → Expanding)
    (hchain : ∀ i, env.Calls whole (chain i) (chain (i + 1))) : ∃ i, env.FallsBack whole (chain i) (chain (i + 1)) := by
  have hwf : WellFounded (InvImage (Prod.Lex (· < ·) (· < ·)) env.rank) :=
    InvImage.wf _ (WellFounded.prod_lex Nat.lt_wfRel.wf Nat.lt_wfRel.wf)
  generalize hfirst : chain 0 = first
  induction first using hwf.induction generalizing chain with
  | h first ih =>
    subst hfirst
    by_cases hfalls : env.FallsBack whole (chain 0) (chain 1)
    · exact ⟨0, hfalls⟩
    · obtain ⟨i, hi⟩ := ih (chain 1) ((hchain 0).rank_lt hfinite hfalls) (fun i => chain (i + 1)) (fun i => hchain (i + 1)) rfl
      exact ⟨i + 1, hi⟩

/-- Calls that go on for ever come to fallbacks again and again. -/
theorem exists_fallback_after (hfinite : (answered env.get?).Finite) {chain : Nat → Expanding}
    (hchain : ∀ i, env.Calls whole (chain i) (chain (i + 1))) (n : Nat) :
    ∃ i ≥ n, env.FallsBack whole (chain i) (chain (i + 1)) := by
  obtain ⟨i, hi⟩ := exists_fallback hfinite (fun i => chain (n + i)) fun i => hchain (n + i)
  exact ⟨n + i, Nat.le_add_right n i, hi⟩

end Fallbacks

/-! ## Dollar signs that belong to placeholders -/

/-- Each dollar sign of a text belongs to a placeholder that is closed. -/
inductive Tidy : List Char → Prop where
  | of_pieces {text : List Char} : (∀ part, .literal part ∈ pieces text → '$' ∉ part) →
      (∀ body, .placeholder body ∈ pieces text → Tidy body) → Tidy text

section Tidy

variable {env : Environment} {whole : String} {depth : Nat} {visiting : List String} {e e' : Expanding}
  {text body expanded fallback : List Char} {key : String}

/-- A text without dollar signs has no placeholders, and its parts have no dollar signs. -/
theorem exists_literal_of_mem_pieces {piece : Piece} (h : piece ∈ pieces text) (hnone : '$' ∉ text) :
    ∃ part, piece = .literal part ∧ '$' ∉ part := by
  have hwithin : ∀ fuel text, piece ∈ piecesWithin fuel text → '$' ∉ text → ∃ part, piece = .literal part ∧ '$' ∉ part := by
    intro fuel text hmem hnone
    fun_induction piecesWithin fuel text with
    | case1 text => exact ⟨text, List.mem_singleton.mp hmem, hnone⟩
    | case2 => cases hmem
    | case3 fuel c rest hopens body behind hclosing ih =>
      unfold opens at hopens
      split at hopens
      · rename_i heq
        exact absurd (heq ▸ List.mem_cons_self) hnone
      · cases hopens
    | case4 fuel c rest => exact ⟨c :: rest, List.mem_singleton.mp hmem, hnone⟩
    | case5 fuel c rest hopens ih =>
      rw [List.mem_cons, not_or] at hnone
      rcases List.mem_cons.mp hmem with rfl | hmem
      · exact ⟨[c], rfl, by simpa using hnone.1⟩
      · exact ih hmem hnone.2
  exact hwithin text.length text h hnone

theorem tidy_of_notMem (hnone : '$' ∉ text) : Tidy text := by
  refine .of_pieces ?_ ?_
  · intro part hpart
    obtain ⟨other, heq, hother⟩ := exists_literal_of_mem_pieces hpart hnone
    cases heq
    exact hother
  · intro body hbody
    obtain ⟨other, heq, -⟩ := exists_literal_of_mem_pieces hbody hnone
    cases heq

/-- A fallback is part of what the body of its placeholder expands to. -/
theorem mem_of_mem_fallback {c : Char} (h : keyAndFallback expanded = (key, some fallback)) (hc : c ∈ fallback) : c ∈ expanded := by
  have hcut : ∀ text before behind, Text.cut ':' text = some (before, behind) → c ∈ behind → c ∈ text := by
    intro text
    induction text with
    | nil => intro before behind h; cases h
    | cons d rest ih =>
      intro before behind h hmem
      simp only [Text.cut] at h
      split at h
      · cases h
        exact List.mem_cons_of_mem d hmem
      · obtain ⟨⟨before', behind'⟩, hrest, heq⟩ := Option.map_eq_some_iff.mp h
        cases heq
        exact List.mem_cons_of_mem d (ih _ _ hrest hmem)
  unfold keyAndFallback at h
  split at h
  · rename_i hfound
    cases h
    exact hcut _ _ _ hfound hc
  · cases h

/-- A part of a tidy text stands for something without dollar signs, if what is nested in it does. -/
theorem notMem_of_expandPiece {expand : List String → List Char → Except PlaceholderError (List Char)} {piece : Piece}
    {part : List Char} (hvalues : ∀ key value, env.get? key = some value → Tidy value.toList) (htidy : Tidy text)
    (hexpand : ∀ {visiting text expanded}, Tidy text → expand visiting text = .ok expanded → '$' ∉ expanded)
    (hpiece : piece ∈ pieces text) (h : env.expandPiece whole expand visiting piece = .ok part) : '$' ∉ part := by
  obtain ⟨hliteral, hplaceholder⟩ := htidy
  cases piece with
  | literal part' =>
    cases h
    exact hliteral part hpiece
  | placeholder body =>
    cases hbody : expand visiting body with
    | error error => simp only [expandPiece, hbody] at h; cases h
    | ok named =>
      have hnamed : '$' ∉ named := hexpand (hplaceholder body hpiece) hbody
      have hkey : env.expandKey whole expand visiting (keyAndFallback named).1 (keyAndFallback named).2 = .ok part := by
        simp only [expandPiece, hbody] at h
        exact h
      unfold expandKey at hkey
      split at hkey
      · cases hkey
      · split at hkey
        · rename_i value _ hvalue
          exact hexpand (hvalues _ _ hvalue) hkey
        · rename_i fallback _ hfallback
          have hasked : keyAndFallback named = ((keyAndFallback named).1, some fallback) := Prod.ext rfl hfallback
          exact hexpand (tidy_of_notMem fun hdollar => hnamed (mem_of_mem_fallback hasked hdollar)) hkey
        · cases hkey

/-- Where texts and values are tidy, an expansion has no dollar signs. -/
theorem notMem_of_expandWithin [env.Steady] (hvalues : ∀ key value, env.get? key = some value → Tidy value.toList) (htidy : Tidy text)
    (h : env.expandWithin whole depth visiting text = .ok expanded) : '$' ∉ expanded := by
  induction depth generalizing visiting text expanded with
  | zero => cases h
  | succ depth ih =>
    rw [expandWithin_succ_of_steady] at h
    cases houtcome : (pieces text).mapM (env.expandPiece whole (env.expandWithin whole depth) visiting) with
    | error error => rw [houtcome] at h; cases h
    | ok parts =>
      rw [houtcome] at h
      cases h
      rw [List.mem_flatten]
      rintro ⟨part, hpart, hdollar⟩
      obtain ⟨piece, hpiece, hstands⟩ := exists_of_mem_mapM houtcome part hpart
      exact notMem_of_expandPiece hvalues htidy ih hpiece hstands hdollar

/-- Where texts and values are tidy, a fallback has no dollar signs when it is expanded. -/
theorem FallsBack.notMem [env.Steady] (hvalues : ∀ key value, env.get? key = some value → Tidy value.toList) (htidy : Tidy e.text)
    (h : env.FallsBack whole e e') : '$' ∉ e'.text := by
  obtain ⟨key, fallback, ⟨body, depth, expanded, hreaches, hexpanded, hasked⟩, -, -, rfl⟩ := h
  obtain ⟨-, hplaceholder⟩ := htidy
  exact fun hdollar =>
    notMem_of_expandWithin hvalues (hplaceholder body hreaches.mem_pieces) hexpanded (mem_of_mem_fallback hasked hdollar)

/-- Where texts and values are tidy, so is all that is called for. -/
theorem Calls.tidy [env.Steady] (hvalues : ∀ key value, env.get? key = some value → Tidy value.toList) (htidy : Tidy e.text)
    (h : env.Calls whole e e') : Tidy e'.text := by
  cases h with
  | @body body hreaches =>
    obtain ⟨-, hplaceholder⟩ := htidy
    exact hplaceholder body hreaches.mem_pieces
  | value hasks hnew hvalue => exact hvalues _ _ hvalue
  | fallback hfalls => exact tidy_of_notMem (hfalls.notMem hvalues htidy)

/-- Who calls for something has a placeholder. -/
theorem Calls.exists_placeholder (h : env.Calls whole e e') : ∃ body, .placeholder body ∈ pieces e.text := by
  cases h with
  | body hreaches => exact ⟨_, hreaches.mem_pieces⟩
  | value hasks _ _ =>
    obtain ⟨body, -, -, hreaches, -, -⟩ := hasks
    exact ⟨body, hreaches.mem_pieces⟩
  | fallback hfalls =>
    obtain ⟨-, -, ⟨body, -, -, hreaches, -, -⟩, -, -, -⟩ := hfalls
    exact ⟨body, hreaches.mem_pieces⟩

/-- Where a text and all values are tidy, the expansion of the text ends. -/
theorem not_unending_of_tidy [env.Steady] (hfinite : (answered env.get?).Finite)
    (hvalues : ∀ key value, env.get? key = some value → Tidy value.toList) (htidy : Tidy e.text) : ¬env.Unending whole e := by
  intro h
  obtain ⟨chain, rfl, hchain⟩ := unending_iff_exists_calls.mp h
  have hall : ∀ i, Tidy (chain i).text := by
    intro i
    induction i with
    | zero => exact htidy
    | succ i ih => exact (hchain i).tidy hvalues ih
  obtain ⟨i, hfalls⟩ := exists_fallback hfinite chain hchain
  obtain ⟨body, hbody⟩ := (hchain (i + 1)).exists_placeholder
  obtain ⟨part, heq, -⟩ := exists_literal_of_mem_pieces hbody (hfalls.notMem hvalues (hall i))
  cases heq

end Tidy

end Environment

end Ignition
