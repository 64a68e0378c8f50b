import Ignition.Proofs.Config.Steady

/-!
# Expansions under a limit

An expansion is *finished* if the limit on its depth did not bring its outcome about (`Finished`). More depth then changes nothing
(`expandWithin_of_le`), so an expansion without a limit has this outcome if any limit lets it finish, and has none otherwise. What an
expansion finds depends on an environment only through what its layers hold (`expandWithin_congr`), and on where it is used only through
random values (`expandWithin_succ_of_steady`). A text is `Endless` if no limit lets its expansion finish, as is a placeholder that its own
expansion restores (`endless_of_restored`).
-/

namespace Ignition

open Placeholder

/-! ## Errors that an outcome avoids -/

/-- An outcome that is no error of a kind. -/
def Avoids {ε α : Type} (kind : ε → Bool) (outcome : Except ε α) : Prop :=
  ∀ error, outcome = .error error → kind error = false

section Avoids

variable {ε α β : Type} {kind : ε → Bool} {first first' : Except ε α} {next next' : α → Except ε β}

/-- A success avoids all errors. -/
theorem avoids_ok (a : α) : Avoids kind (.ok a : Except ε α) := fun _ h => nomatch h

/-- An error avoids the kinds that it is not of. -/
theorem avoids_error_iff {error : ε} : Avoids kind (.error error : Except ε α) ↔ kind error = false :=
  ⟨fun h => h error rfl, fun h _ he => Except.error.inj he ▸ h⟩

/-- What an outcome avoids does not depend on the value that it has otherwise. -/
theorem avoids_map_iff {f : α → β} : Avoids kind (first.map f) ↔ Avoids kind first := by
  cases first with
  | error error => exact avoids_error_iff.trans avoids_error_iff.symm
  | ok a => exact iff_of_true (avoids_ok (f a)) (avoids_ok a)

/-- What two steps avoid, the first of them avoids. -/
theorem Avoids.of_bind (h : Avoids kind (first >>= next)) : Avoids kind first := by
  intro error hfirst
  rw [hfirst] at h
  exact h error rfl

/-- What both of two steps avoid, they avoid together. -/
theorem Avoids.bind (hfirst : Avoids kind first) (hnext : ∀ a, Avoids kind (next a)) : Avoids kind (first >>= next) := by
  cases first with
  | error error => exact fun other he => hfirst other (congrArg Except.error (Except.error.inj he))
  | ok a => exact hnext a

/-- Steps that have the same outcome where they avoid a kind of errors have the same outcome one behind the other. -/
theorem Avoids.bind_congr (h : Avoids kind (first >>= next)) (hfirst : Avoids kind first → first' = first)
    (hnext : ∀ a, first = .ok a → Avoids kind (next a) → next' a = next a) : (first' >>= next') = (first >>= next) := by
  rw [hfirst h.of_bind]
  cases first with
  | error error => rfl
  | ok a => exact hnext a rfl h

/-- Steps that have the same outcome where they avoid a kind of errors have the same outcomes for all items of a list. -/
theorem Avoids.mapM_congr {step step' : α → Except ε β} {items : List α} (h : Avoids kind (items.mapM step))
    (hstep : ∀ a, Avoids kind (step a) → step' a = step a) : items.mapM step' = items.mapM step := by
  induction items with
  | nil => rfl
  | cons a items ih =>
    rw [List.mapM_cons] at h ⊢
    rw [List.mapM_cons]
    exact h.bind_congr (hstep a) fun _ _ hrest => hrest.bind_congr ih fun _ _ _ => rfl

end Avoids

/-- Whether a limit on the depth of expansions is at fault. -/
def PlaceholderError.isTooDeep : PlaceholderError → Bool
  | .tooDeep _ => true
  | .unresolvable _ _ | .circular _ _ => false

/-! ## Expansion by parts -/

namespace Environment

/-- The outcome of an expansion that no limit on the depth brought about. -/
abbrev Finished {α : Type} (outcome : Except PlaceholderError α) : Prop :=
  Avoids PlaceholderError.isTooDeep outcome

/-- The environment with another limit on the depth of expansions. -/
def deepen (env : Environment) (depth : Nat) : Environment :=
  { env with nesting := depth }

instance {env : Environment} {depth : Nat} [h : env.Steady] : (env.deepen depth).Steady :=
  ⟨h.layer_steady⟩

section Expansion

variable {env env' : Environment} {whole : String} {depth depth' behind : Nat} {visiting : List String} {text : List Char}
  {key : String} {fallback : Option (List Char)} {piece : Piece}
  {expandAt expandAt' : Environment → List String → List Char → Except PlaceholderError (List Char)}
  {expand expand' : List String → List Char → Except PlaceholderError (List Char)}

/-- What a placeholder with some characters behind it stands for whose key and fallback are known, given the expansion of texts that are
nested less deeply, wherever the environment is used for it. -/
def expandKeyAt (env : Environment) (whole : String)
    (expand : Environment → List String → List Char → Except PlaceholderError (List Char)) (visiting : List String) (behind : Nat)
    (key : String) (fallback : Option (List Char)) : Except PlaceholderError (List Char) :=
  if visiting.contains key then .error (.circular key whole)
  else match (env.toward (.key behind)).get? key, fallback with
    | some value, _ => expand (env.toward (.value behind)) (key :: visiting) value.toList
    | none, some fallback => expand (env.toward (.fallback behind)) visiting fallback
    | none, none => .error (.unresolvable key whole)

/-- What a part of a text with some characters behind it stands for, given the expansion of texts that are nested less deeply. -/
def expandPieceAt (env : Environment) (whole : String)
    (expand : Environment → List String → List Char → Except PlaceholderError (List Char)) (visiting : List String) :
    Nat × Piece → Except PlaceholderError (List Char)
  | (_, .literal part) => .ok part
  | (behind, .placeholder body) => do
    let (key, fallback) := keyAndFallback (← expand (env.toward (.body behind)) visiting body)
    env.expandKeyAt whole expand visiting behind key fallback

/-- A text is expanded part by part. -/
theorem expandWithin_succ : env.expandWithin whole (depth + 1) visiting text =
    ((numbered (pieces text)).mapM (env.expandPieceAt whole (expandWithin whole depth) visiting)).map List.flatten := by
  have hparts : ∀ part : Nat × Piece → Except PlaceholderError (List Char),
      (∀ piece, part piece = env.expandPieceAt whole (expandWithin whole depth) visiting piece) →
      (do let parts ← (numbered (pieces text)).mapM part; pure parts.flatten) =
        ((numbered (pieces text)).mapM (env.expandPieceAt whole (expandWithin whole depth) visiting)).map List.flatten := by
    intro part hpart
    rw [funext hpart]
    cases (numbered (pieces text)).mapM (env.expandPieceAt whole (expandWithin whole depth) visiting) <;> rfl
  refine hparts _ fun (behind, piece) => ?_
  cases piece <;> rfl

/-! ## More depth -/

/-- What a key stands for stays the same if the expansions of texts that are nested less deeply do. -/
theorem expandKeyAt_congr (h : Finished (env.expandKeyAt whole expandAt visiting behind key fallback))
    (hexpand : ∀ env visiting text, Finished (expandAt env visiting text) → expandAt' env visiting text = expandAt env visiting text) :
    env.expandKeyAt whole expandAt' visiting behind key fallback = env.expandKeyAt whole expandAt visiting behind key fallback := by
  unfold expandKeyAt at h ⊢
  by_cases hcircular : visiting.contains key = true
  · rw [if_pos hcircular, if_pos hcircular]
  · rw [if_neg hcircular] at h ⊢
    rw [if_neg hcircular]
    cases hvalue : (env.toward (.key behind)).get? key with
    | some value =>
      rw [hvalue] at h
      exact hexpand _ (key :: visiting) value.toList h
    | none =>
      rw [hvalue] at h
      cases fallback with
      | some fallback => exact hexpand _ visiting fallback h
      | none => rfl

/-- What a part stands for stays the same if the expansions of texts that are nested less deeply do. -/
theorem expandPieceAt_congr (h : Finished (env.expandPieceAt whole expandAt visiting (behind, piece)))
    (hexpand : ∀ env visiting text, Finished (expandAt env visiting text) → expandAt' env visiting text = expandAt env visiting text) :
    env.expandPieceAt whole expandAt' visiting (behind, piece) = env.expandPieceAt whole expandAt visiting (behind, piece) := by
  cases piece with
  | literal part => rfl
  | placeholder body => exact h.bind_congr (hexpand _ visiting body) fun _ _ hkey => expandKeyAt_congr hkey hexpand

/-- More depth changes nothing about an expansion that is finished. -/
theorem expandWithin_of_le (hle : depth ≤ depth') (h : Finished (env.expandWithin whole depth visiting text)) :
    env.expandWithin whole depth' visiting text = env.expandWithin whole depth visiting text := by
  induction depth generalizing depth' env visiting text with
  | zero => exact absurd (h _ rfl) Bool.noConfusion
  | succ depth ih =>
    obtain ⟨deeper, rfl⟩ : ∃ deeper, depth' = deeper + 1 := Nat.exists_eq_succ_of_ne_zero (Nat.ne_zero_of_lt hle)
    rw [expandWithin_succ] at h ⊢
    rw [expandWithin_succ]
    rw [(avoids_map_iff.mp h).mapM_congr fun _ hpiece =>
      expandPieceAt_congr hpiece fun _ _ _ => ih (Nat.le_of_succ_le_succ hle)]

/-- Depths that are enough for an expansion make no difference to it. -/
theorem expandWithin_unique (h : Finished (env.expandWithin whole depth visiting text))
    (h' : Finished (env.expandWithin whole depth' visiting text)) :
    env.expandWithin whole depth visiting text = env.expandWithin whole depth' visiting text := by
  rcases Nat.le_total depth depth' with hle | hle
  · exact (expandWithin_of_le hle h).symm
  · exact expandWithin_of_le hle h'

/-! ## What matters of an environment -/

/-- What the layers of an environment hold, in order. -/
def sources (env : Environment) : List Source :=
  env.layers.map (·.source)

/-- Environments that hold the same hold the same on from a step. -/
theorem sources_toward (h : env.sources = env'.sources) (step : Draws.Step) : (env.toward step).sources = (env'.toward step).sources := by
  have hmap : ∀ env : Environment, (env.toward step).sources = env.sources.map (·.mapWays (Draws.behind? step)) := fun env => by
    rw [sources, sources, toward, mapWays, List.map_map, List.map_map]
    rfl
  rw [hmap, hmap, h]

/-- Environments that hold the same answer alike. -/
theorem get?_congr (h : env.sources = env'.sources) (key : String) : env.get? key = env'.get? key := by
  have hsources : ∀ env : Environment,
      env.get? key = env.sources.findSome? fun source => ({ name := "", source } : Layer).get? key := fun env => by
    rw [get?, sources, List.findSome?_map]
    rfl
  rw [hsources, hsources, h]

/-- An expansion depends on an environment only through what its layers hold. -/
theorem expandWithin_congr (h : env.sources = env'.sources) :
    env.expandWithin whole depth visiting text = env'.expandWithin whole depth visiting text := by
  induction depth generalizing env env' visiting text with
  | zero => rfl
  | succ depth ih =>
    have hpiece : env.expandPieceAt whole (expandWithin whole depth) visiting =
        env'.expandPieceAt whole (expandWithin whole depth) visiting := by
      funext (behind, piece)
      cases piece with
      | literal part => rfl
      | placeholder body =>
        simp only [expandPieceAt, expandKeyAt, ih (sources_toward h _), get?_congr (sources_toward h _)]
    rw [expandWithin_succ, expandWithin_succ, hpiece]

/-- Environments that hold the same under the same limit expand a text alike. -/
theorem expand_congr {text : String} (h : env.sources = env'.sources) (hnesting : env.nesting = env'.nesting) :
    env.expand text = env'.expand text := by
  rw [expand, expand, expandWithin_congr h, hnesting]

/-- The limit of an environment is that of its expansions. -/
theorem expand_deepen_eq {text : String} :
    (env.deepen depth).expand text = (env.expandWithin text depth [] text.toList).map String.ofList := by
  have hsame : (env.deepen depth).expandWithin text depth [] text.toList = env.expandWithin text depth [] text.toList :=
    expandWithin_congr rfl
  rw [← hsame]
  rfl

/-- More depth changes nothing about the expansion of a text that is finished. -/
theorem expand_deepen {text : String} (hle : env.nesting ≤ depth) (h : Finished (env.expand text)) :
    (env.deepen depth).expand text = env.expand text := by
  rw [expand_deepen_eq, expandWithin_of_le hle (avoids_map_iff.mp h)]
  rfl

/-- A text whose expansion never ends: no depth is enough for it. -/
def Endless (env : Environment) (text : String) : Prop :=
  ∀ depth, ¬Finished (env.expandWithin text depth [] text.toList)

/-! ## Without random values -/

/-- What a placeholder stands for whose key and fallback are known, given the expansion of texts that are nested less deeply. -/
def expandKey (env : Environment) (whole : String)
    (expand : List String → List Char → Except PlaceholderError (List Char)) (visiting : List String) (key : String)
    (fallback : Option (List Char)) : Except PlaceholderError (List Char) :=
  if visiting.contains key then .error (.circular key whole)
  else match env.get? key, fallback with
    | some value, _ => expand (key :: visiting) value.toList
    | none, some fallback => expand visiting fallback
    | none, none => .error (.unresolvable key whole)

/-- What a part of a text stands for, given the expansion of texts that are nested less deeply. -/
def expandPiece (env : Environment) (whole : String)
    (expand : List String → List Char → Except PlaceholderError (List Char)) (visiting : List String) :
    Piece → Except PlaceholderError (List Char)
  | .literal part => .ok part
  | .placeholder body => do
    let (key, fallback) := keyAndFallback (← expand visiting body)
    env.expandKey whole expand visiting key fallback

/-- Without random values a key stands for the same wherever its placeholder is. -/
theorem expandKeyAt_of_steady [env.Steady] :
    env.expandKeyAt whole expandAt visiting behind key fallback = env.expandKey whole (expandAt env) visiting key fallback := by
  simp only [expandKeyAt, toward_eq_self]
  rfl

/-- So does a part of a text. -/
theorem expandPieceAt_of_steady [env.Steady] :
    env.expandPieceAt whole expandAt visiting (behind, piece) = env.expandPiece whole (expandAt env) visiting piece := by
  cases piece with
  | literal part => rfl
  | placeholder body =>
    simp only [expandPieceAt, toward_eq_self, expandKeyAt_of_steady]
    rfl

/-- The numbers of the parts make no difference to what is made of each part by itself. -/
theorem mapM_numbered {ε β : Type} {step : Piece → Except ε β} (items : List Piece) :
    (numbered items).mapM (fun item => step item.2) = items.mapM step := by
  induction items with
  | nil => rfl
  | cons piece items ih => rw [numbered, List.mapM_cons, List.mapM_cons, ih]

/-- Without random values a text is expanded part by part in one environment. -/
theorem expandWithin_succ_of_steady [env.Steady] : env.expandWithin whole (depth + 1) visiting text =
    ((pieces text).mapM (env.expandPiece whole (env.expandWithin whole depth) visiting)).map List.flatten := by
  have hpiece : env.expandPieceAt whole (expandWithin whole depth) visiting =
      fun item => env.expandPiece whole (env.expandWithin whole depth) visiting item.2 :=
    funext fun _ => expandPieceAt_of_steady
  rw [expandWithin_succ, hpiece, mapM_numbered]

/-- What a part stands for stays the same if the expansions of texts that are nested less deeply do. -/
theorem expandPiece_congr [env.Steady] (h : Finished (env.expandPiece whole expand visiting piece))
    (hexpand : ∀ visiting text, Finished (expand visiting text) → expand' visiting text = expand visiting text) :
    env.expandPiece whole expand' visiting piece = env.expandPiece whole expand visiting piece := by
  have hplace : ∀ expand, env.expandPiece whole expand visiting piece = env.expandPieceAt whole (fun _ => expand) visiting (0, piece) :=
    fun expand => (@expandPieceAt_of_steady env whole 0 visiting piece (fun _ => expand) _).symm
  rw [hplace] at h ⊢
  rw [hplace]
  exact expandPieceAt_congr h fun _ => hexpand

/-- A missing key stands for its fallback. -/
theorem expandKey_of_missing {key : String} {fallback : List Char} (h : env.get? key = none) (hnew : key ∉ visiting) :
    env.expandKey whole expand visiting key (some fallback) = expand visiting fallback := by
  simp [expandKey, h, hnew]

/-- A key with a value that is not kept stands for what its value expands to. -/
theorem expandKey_of_value {key value : String} {fallback : Option (List Char)} (h : env.get? key = some value)
    (hnew : key ∉ visiting) : env.expandKey whole expand visiting key fallback = expand (key :: visiting) value.toList := by
  simp [expandKey, h, hnew]

/-- A placeholder never ends to be expanded whose body comes to name a missing key with the placeholder itself for its fallback. -/
theorem endless_of_restored [env.Steady] {text : String} {body expanded : List Char} {key : String}
    (hpieces : pieces text.toList = [.placeholder body]) (hbody : env.expandWithin text depth [] body = .ok expanded)
    (hkey : keyAndFallback expanded = (key, some text.toList)) (hmissing : env.get? key = none) : env.Endless text := by
  intro limit hfinished
  induction limit with
  | zero => exact absurd (hfinished _ rfl) Bool.noConfusion
  | succ limit ih =>
    rw [expandWithin_succ_of_steady, hpieces] at hfinished
    have hparts := avoids_map_iff.mp hfinished
    rw [List.mapM_cons] at hparts
    have hpiece : Finished (env.expandWithin text limit [] body >>= fun expanded =>
      env.expandKey text (env.expandWithin text limit) [] (keyAndFallback expanded).1 (keyAndFallback expanded).2) := hparts.of_bind
    have hbody' : env.expandWithin text limit [] body = .ok expanded :=
      (expandWithin_unique hpiece.of_bind (hbody ▸ avoids_ok expanded)).trans hbody
    rw [hbody'] at hpiece
    have hfallback : Finished (env.expandKey text (env.expandWithin text limit) [] (keyAndFallback expanded).1
      (keyAndFallback expanded).2) := hpiece
    rw [hkey, expandKey_of_missing hmissing List.not_mem_nil] at hfallback
    exact ih hfallback

end Expansion

end Environment

end Ignition
