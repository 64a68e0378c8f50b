import Ignition.Proofs.Config.Circularity
import Ignition.Proofs.Config.Options

/-!
# Fallbacks that are not needed

The body of a placeholder is expanded before it is cut at the colon. So a fallback is expanded also where the key has a value and the
fallback is not needed: what it expands to is dropped, but if its expansion fails, so does that of the placeholder
(`outcome_forKeyOr`). A fallback without placeholders makes no difference to a key that has a value.
-/

namespace Ignition

open Placeholder

namespace Placeholder

/-- The placeholder for a key. -/
def forKey (key : String) : String :=
  "$\x7b" ++ key ++ "\x7d"

/-- The placeholder for a key with a fallback. -/
def forKeyOr (key fallback : String) : String :=
  "$\x7b" ++ key ++ ":" ++ fallback ++ "\x7d"

/-- A text in which no placeholder opens. -/
def Unopened (text : List Char) : Prop :=
  ¬opening <:+: text

instance (text : List Char) : Decidable (Unopened text) :=
  inferInstanceAs (Decidable (¬opening <:+: text))

/-- A text whose placeholders are balanced: the brace behind it is not one that closes a placeholder in it. -/
def Balanced (text : List Char) : Prop :=
  closing? 0 (text ++ ['\x7d']) = some (text, [])

instance (text : List Char) : Decidable (Balanced text) :=
  inferInstanceAs (Decidable (closing? 0 (text ++ ['\x7d']) = some (text, [])))

/-- The characters of the placeholder for a key. -/
theorem toList_forKey (key : String) : (forKey key).toList = '$' :: '\x7b' :: (key.toList ++ ['\x7d']) := by
  simp [forKey]

/-- The characters of the placeholder for a key with a fallback. -/
theorem toList_forKeyOr (key fallback : String) :
    (forKeyOr key fallback).toList = '$' :: '\x7b' :: ((key.toList ++ ':' :: fallback.toList) ++ ['\x7d']) := by
  simp [forKeyOr]

section Pieces

variable {c : Char} {text behind : List Char} {depth : Nat}

/-- What is left of a text opens no placeholder if the text opens none. -/
theorem Unopened.tail (h : Unopened (c :: text)) : Unopened text :=
  fun hopens => h (hopens.trans (List.suffix_cons c text).isInfix)

/-- Such a text does not begin with an opening. -/
theorem Unopened.opens_eq (h : Unopened (c :: text)) : opens (c :: text) = false := by
  rw [Bool.eq_false_iff]
  intro hopens
  exact h (opens_iff.mp hopens).isInfix

/-- It is closed. -/
theorem Unopened.closed (h : Unopened text) : Closed text := by
  induction text with
  | nil => exact .nil
  | cons c text ih => exact .literal h.opens_eq (ih h.tail)

/-- Only a brace at its beginning makes an opening with the text before. -/
theorem apart_of_head (h : behind.head? ≠ some '\x7b') : Apart text behind :=
  fun hmeet => h hmeet.2

/-- A text in which no placeholder opens and no brace closes one is passed over. -/
theorem closing?_append (h : Unopened text) (hclose : '\x7d' ∉ text) (hbehind : behind.head? ≠ some '\x7b') :
    closing? depth (text ++ behind) = (closing? depth behind).map fun (body, rest) => (text ++ body, rest) := by
  induction text with
  | nil => simp
  | cons c text ih =>
    have hne : c ≠ '\x7d' := fun heq => hclose (heq ▸ List.mem_cons_self)
    have hrest := ih h.tail fun hmem => hclose (List.mem_cons_of_mem _ hmem)
    have hopens := (apart_of_head hbehind).opens_append h.opens_eq
    simp only [List.cons_append, closing?, if_neg hne, hopens, if_neg Bool.false_ne_true, hrest, Option.map_map]
    rfl

end Pieces

end Placeholder

/-- An error but for the text that it names. -/
def PlaceholderError.unquoted : PlaceholderError → PlaceholderError
  | .unresolvable key _ => .unresolvable key ""
  | .circular key _ => .circular key ""
  | .tooDeep _ => .tooDeep ""

section MapError

variable {ε α β : Type} {first : Except ε α} {next : α → Except ε β} {change : ε → ε}

theorem mapError_map {f : α → β} : (first.map f).mapError change = (first.mapError change).map f := by
  cases first <;> rfl

/-- The error of two steps is changed in each of them. -/
theorem mapError_bind : (first >>= next).mapError change = (first.mapError change >>= fun a => (next a).mapError change) := by
  cases first <;> rfl

/-- The error of steps one after the other is changed in each of them. -/
theorem mapError_mapM {items : List α} : (items.mapM next).mapError change = items.mapM fun a => (next a).mapError change := by
  induction items with
  | nil => rfl
  | cons a items ih =>
    rw [List.mapM_cons, List.mapM_cons, mapError_bind, ← ih]
    cases next a with
    | error error => rfl
    | ok b => cases items.mapM next <;> rfl

end MapError

namespace Environment

/-- The outcome of an expansion but for the text that an error names. -/
def outcome (env : Environment) (text : String) : Except PlaceholderError String :=
  (env.expand text).mapError (·.unquoted)

section Fallbacks

variable {env : Environment} {whole : String} {depth : Nat} {visiting : List String} {c : Char}
  {text behind body key value fallback : List Char}

/-! ## The text that an error names -/

/-- What a key stands for, but for the text that an error names. -/
theorem mapError_expandKeyAt {expandAt : Environment → List String → List Char → Except PlaceholderError (List Char)} {count : Nat}
    {key : String} {fallback : Option (List Char)} :
    (env.expandKeyAt whole expandAt visiting count key fallback).mapError (·.unquoted) =
      env.expandKeyAt "" (fun env visiting text => (expandAt env visiting text).mapError (·.unquoted)) visiting count key fallback := by
  unfold expandKeyAt
  split
  · rfl
  · split <;> rfl

/-- But for the text that an error names, an expansion is that in which errors name no text. -/
theorem mapError_expandWithin :
    (env.expandWithin whole depth visiting text).mapError (·.unquoted) = env.expandWithin "" depth visiting text := by
  induction depth generalizing env visiting text with
  | zero => rfl
  | succ depth ih =>
    have hshallow : (fun env visiting text => (expandWithin whole depth env visiting text).mapError (·.unquoted)) =
        expandWithin "" depth := funext fun _ => funext fun _ => funext fun _ => ih
    have hpiece : ∀ piece, (env.expandPieceAt whole (expandWithin whole depth) visiting piece).mapError (·.unquoted) =
        env.expandPieceAt "" (expandWithin "" depth) visiting piece := by
      intro (count, piece)
      cases piece with
      | literal part => rfl
      | placeholder body =>
        rw [expandPieceAt, mapError_bind, ih, expandPieceAt]
        refine congrArg ((env.toward (.body count)).expandWithin "" depth visiting body >>= ·) (funext fun expanded => ?_)
        rw [mapError_expandKeyAt, hshallow]
    rw [expandWithin_succ, expandWithin_succ, mapError_map, mapError_mapM, funext hpiece]

/-- The outcome under some limit is that of the expansion in which errors name no text. -/
theorem outcome_deepen_eq (depth : Nat) (text : String) :
    (env.deepen depth).outcome text = (env.expandWithin "" depth [] text.toList).map String.ofList := by
  rw [outcome, expand_deepen_eq, mapError_map, mapError_expandWithin]

/-! ## Keys with fallbacks -/

/-- A text in which no placeholder opens stands for itself. -/
theorem expandWithin_unopened (h : Unopened text) : env.expandWithin whole (depth + 1) visiting text = .ok text := by
  induction text with
  | nil => rfl
  | cons c text ih =>
    rw [expandWithin_cons h.opens_eq, ih h.tail]
    rfl

/-- So it does ahead of another text. -/
theorem expandWithin_append (h : Unopened text) (hbehind : behind.head? ≠ some '\x7b') :
    env.expandWithin whole depth visiting (text ++ behind) = (env.expandWithin whole depth visiting behind).map (text ++ ·) := by
  cases depth with
  | zero => rfl
  | succ depth =>
    rw [expandWithin_append_of_closed h.closed (apart_of_head hbehind), expandWithin_unopened h]
    cases env.expandWithin whole (depth + 1) visiting behind <;> rfl

/-- A text that is one placeholder stands for what this one does. -/
theorem expandWithin_placeholder (h : closing? 0 (body ++ ['\x7d']) = some (body, [])) :
    env.expandWithin whole (depth + 1) visiting ('$' :: '\x7b' :: (body ++ ['\x7d'])) =
      ((env.toward (.body 0)).expandWithin whole depth visiting body >>= fun expanded =>
        env.expandKeyAt whole (expandWithin whole depth) visiting 0 (keyAndFallback expanded).1 (keyAndFallback expanded).2) := by
  have hnil : env.expandWithin whole (depth + 1) visiting [] = .ok [] := rfl
  rw [expandWithin_opening h, hnil]
  change _ = env.expandPieceAt whole (expandWithin whole depth) visiting (0, .placeholder body)
  rw [List.length_nil]
  cases env.expandPieceAt whole (expandWithin whole depth) visiting (0, .placeholder body) with
  | error error => rfl
  | ok part => exact congrArg Except.ok (List.append_nil part)

/-- A key for which a value is found stands for what this one expands to. -/
theorem expandKeyAt_of_value {expandAt : Environment → List String → List Char → Except PlaceholderError (List Char)} {count : Nat}
    {key value : String} {fallback : Option (List Char)} (hvalue : (env.toward (.key count)).get? key = some value) :
    env.expandKeyAt whole expandAt [] count key fallback = expandAt (env.toward (.value count)) [key] value.toList := by
  simp [expandKeyAt, hvalue]

/-- A key that has a value stands for what this one does, with some depth less. -/
theorem expandWithin_forKey {key value : String} (hkey : Unopened key.toList) (hclose : '\x7d' ∉ key.toList) (hcolon : ':' ∉ key.toList)
    (hvalue : (env.toward (.key 0)).get? key = some value) : env.expandWithin whole depth [] (forKey key).toList =
      (env.toward (.value 0)).expandWithin whole (depth - 1) [key] value.toList := by
  have hclosing : closing? 0 (key.toList ++ ['\x7d']) = some (key.toList, []) := by
    rw [closing?_append hkey hclose (by simp)]
    simp [closing?]
  have hcut : keyAndFallback key.toList = (key, none) := by
    rw [keyAndFallback, Text.cut_eq_none_iff.mpr hcolon, String.ofList_toList]
  cases depth with
  | zero => rfl
  | succ depth =>
    rw [toList_forKey, expandWithin_placeholder hclosing]
    cases depth with
    | zero => rfl
    | succ depth =>
      rw [expandWithin_unopened hkey]
      show env.expandKeyAt whole (expandWithin whole (depth + 1)) [] 0 (keyAndFallback key.toList).1 (keyAndFallback key.toList).2 = _
      rw [hcut, expandKeyAt_of_value hvalue]
      rfl

/-- With a fallback a key that has a value stands for the same, if the fallback can be expanded. -/
theorem expandWithin_forKeyOr {key value fallback : String} (hkey : Unopened key.toList) (hclose : '\x7d' ∉ key.toList)
    (hcolon : ':' ∉ key.toList) (hvalue : (env.toward (.key 0)).get? key = some value) (hbalanced : Balanced fallback.toList) :
    env.expandWithin whole depth [] (forKeyOr key fallback).toList =
      ((env.toward (.body 0)).expandWithin whole (depth - 1) [] fallback.toList >>= fun _ =>
        (env.toward (.value 0)).expandWithin whole (depth - 1) [key] value.toList) := by
  have hclosing : closing? 0 ((key.toList ++ ':' :: fallback.toList) ++ ['\x7d']) = some (key.toList ++ ':' :: fallback.toList, []) := by
    rw [List.append_assoc, closing?_append hkey hclose (by simp)]
    have hrest : closing? 0 (':' :: (fallback.toList ++ ['\x7d'])) = some (':' :: fallback.toList, []) := by
      simp only [closing?, show opens (':' :: (fallback.toList ++ ['\x7d'])) = false from rfl]
      rw [if_neg (by decide), if_neg Bool.false_ne_true, show closing? 0 _ = _ from hbalanced]
      rfl
    rw [List.cons_append, hrest]
    rfl
  cases depth with
  | zero => rfl
  | succ depth =>
    rw [toList_forKeyOr, expandWithin_placeholder hclosing, expandWithin_append hkey (by simp), expandWithin_cons rfl, Nat.add_sub_cancel]
    cases (env.toward (.body 0)).expandWithin whole depth [] fallback.toList with
    | error error => rfl
    | ok expanded =>
      have hcut : keyAndFallback (key.toList ++ ':' :: expanded) = (key, some expanded) := by
        simp [keyAndFallback, Text.cut_append hcolon]
      show env.expandKeyAt whole (expandWithin whole depth) [] 0 (keyAndFallback (key.toList ++ ':' :: expanded)).1
        (keyAndFallback (key.toList ++ ':' :: expanded)).2 = _
      rw [hcut, expandKeyAt_of_value hvalue]
      rfl

end Fallbacks

/-- The environment in which the body of a text is expanded that is one placeholder: on from the step to this body, at a depth less by
one. -/
def inBody (env : Environment) : Environment :=
  (env.toward (.body 0)).deepen (env.nesting - 1)

/-- In a steady environment only the depth is another one in a body. -/
theorem inBody_eq_deepen (env : Environment) [env.Steady] : env.inBody = env.deepen (env.nesting - 1) := by
  rw [inBody, toward_eq_self]

/-- What the text of a body comes to is its expansion on from the step to the body. -/
theorem outcome_inBody (env : Environment) (text : String) : env.inBody.outcome text =
    ((env.toward (.body 0)).expandWithin "" (env.nesting - 1) [] text.toList).map String.ofList :=
  outcome_deepen_eq ..

/-- The placeholder for a key that has a value comes to the same with a fallback as without, but for the text that an error names, unless
the fallback cannot be expanded: it is expanded first, within the body and so at a depth less by one, and if this fails, so does the
placeholder. A fallback in which no placeholder opens makes no difference. Random values are what is drawn for them, alike with the fallback
and without. -/
theorem outcome_forKeyOr (env : Environment) (key value fallback : String) (hkey : Unopened key.toList)
    (hclose : '\x7d' ∉ key.toList) (hcolon : ':' ∉ key.toList) (hvalue : env.get? key = some value)
    (hbalanced : Balanced fallback.toList) :
    env.outcome (forKeyOr key fallback) = (env.inBody.outcome fallback >>= fun _ => env.outcome (forKey key)) ∧
      (env.outcome (forKeyOr key fallback) = env.outcome (forKey key) ↔
        ∀ error, env.inBody.outcome fallback = .error error → env.outcome (forKey key) = .error error) ∧
      (Unopened fallback.toList → env.outcome (forKeyOr key fallback) = env.outcome (forKey key)) := by
  obtain ⟨drawn, hdrawn⟩ := exists_get?_toward hvalue (.key 0)
  have hfirst : env.outcome (forKeyOr key fallback) = (env.inBody.outcome fallback >>= fun _ => env.outcome (forKey key)) := by
    have hdeepen := @outcome_deepen_eq env env.nesting
    rw [show env.deepen env.nesting = env from rfl] at hdeepen
    rw [hdeepen, hdeepen, outcome_inBody, expandWithin_forKeyOr hkey hclose hcolon hdrawn hbalanced,
      expandWithin_forKey hkey hclose hcolon hdrawn]
    cases (env.toward (.body 0)).expandWithin "" (env.nesting - 1) [] fallback.toList <;> rfl
  have hiff : env.outcome (forKeyOr key fallback) = env.outcome (forKey key) ↔
      ∀ error, env.inBody.outcome fallback = .error error → env.outcome (forKey key) = .error error := by
    rw [hfirst]
    cases env.inBody.outcome fallback with
    | error error => exact ⟨fun h other hother => hother ▸ h.symm, fun h => (h error rfl).symm⟩
    | ok expanded => exact ⟨fun _ _ h => (nomatch h), fun _ => rfl⟩
  refine ⟨hfirst, hiff, fun hunopened => hiff.mpr fun error herror => ?_⟩
  rw [outcome_inBody] at herror
  cases hdepth : env.nesting - 1 with
  | zero =>
    rw [hdepth] at herror
    rw [show env = env.deepen env.nesting from rfl, outcome_deepen_eq, expandWithin_forKey hkey hclose hcolon hdrawn, hdepth]
    exact herror
  | succ depth =>
    rw [hdepth, expandWithin_unopened hunopened] at herror
    cases herror

/-- An environment in which one key has a value. -/
def oneValue : Environment where
  layers := [Layer.ofEntries "values" [("k", "v")]]

/-- A fallback for a key with a value which can be expanded, by its own fallback. -/
theorem outcome_forKeyOr_oneValue :
    Unopened "k".toList ∧ '\x7d' ∉ "k".toList ∧ ':' ∉ "k".toList ∧ oneValue.get? "k" = some "v" ∧
      Balanced "$\x7bmissing:$\x7bk\x7d\x7d".toList ∧
      oneValue.outcome (forKeyOr "k" "$\x7bmissing:$\x7bk\x7d\x7d") = oneValue.outcome (forKey "k") := by
  have hkey : Unopened "k".toList := by decide
  have hclose : '\x7d' ∉ "k".toList := by decide
  have hcolon : ':' ∉ "k".toList := by decide
  have hvalue : oneValue.get? "k" = some "v" := by decide +kernel
  have hbalanced : Balanced "$\x7bmissing:$\x7bk\x7d\x7d".toList := by decide +kernel
  have hfallback : oneValue.inBody.outcome "$\x7bmissing:$\x7bk\x7d\x7d" = .ok "v" := by decide +kernel
  obtain ⟨-, hiff, -⟩ := outcome_forKeyOr oneValue "k" "v" _ hkey hclose hcolon hvalue hbalanced
  exact ⟨hkey, hclose, hcolon, hvalue, hbalanced, hiff.mpr fun error herror => nomatch hfallback.symm.trans herror⟩

/-- The key has a value and the fallback is not needed, but the placeholder fails, because the fallback has a placeholder for a key
without one. -/
theorem forKeyOr_ne_forKey_oneValue :
    Unopened "k".toList ∧ '\x7d' ∉ "k".toList ∧ ':' ∉ "k".toList ∧ oneValue.get? "k" = some "v" ∧
      Balanced (forKey "missing").toList ∧ oneValue.outcome (forKey "k") = .ok "v" ∧
      oneValue.outcome (forKeyOr "k" (forKey "missing")) = .error (.unresolvable "missing" "") := by
  decide +kernel

end Environment

end Ignition
