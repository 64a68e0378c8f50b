import Ignition.Proofs.Config.Expansion

/-!
# What a scan of a text finds

A text is scanned from one placeholder to the next. It is *closed* if each placeholder that opens is closed in it (`Closed`), which is so
exactly if no opening waits for its brace at its end (`closed_iff`). The scan of a closed text comes to the text behind it with nothing left
to remember, so the two are expanded one after the other (`Environment.expandWithin_append_of_closed`). The one thing that could come
between is an opening that they make where they meet (`Apart`).
-/

namespace Ignition

open Placeholder

namespace Placeholder

/-- A text in which each placeholder that opens is closed. -/
inductive Closed : List Char → Prop where
  /-- There is nothing to close. -/
  | nil : Closed []
  /-- A character opens no placeholder. -/
  | literal {c : Char} {rest : List Char} : opens (c :: rest) = false → Closed rest → Closed (c :: rest)
  /-- A placeholder opens and is closed. -/
  | placeholder {rest body behind : List Char} :
      closing? 0 rest = some (body, behind) → Closed behind → Closed ('$' :: '\x7b' :: rest)

/-- How many openings wait for their braces behind a text, if some did before it. A closing brace that none waits for is ordinary text. -/
def waiting (before : Nat) : List Char → Nat
  | [] => before
  | c :: rest =>
    if c = '\x7d' then waiting (before - 1) rest else waiting (if opens (c :: rest) then before + 1 else before) rest

/-- Two texts that do not make an opening where they meet. -/
def Apart (first second : List Char) : Prop :=
  ¬(first.getLast? = some '$' ∧ second.head? = some '\x7b')

instance (first second : List Char) : Decidable (Apart first second) :=
  inferInstanceAs (Decidable (¬(first.getLast? = some '$' ∧ second.head? = some '\x7b')))

section Closed

variable {c : Char} {text rest body behind more : List Char} {depth : Nat}

/-! ## Bodies -/

/-- A placeholder opens where a text begins with its opening. -/
theorem opens_iff : opens text = true ↔ opening <+: text := by
  unfold opens opening
  split
  · simp
  · rename_i hnot
    simp only [Bool.false_eq_true, false_iff]
    rintro ⟨rest, rfl⟩
    exact hnot rest rfl

/-- A body, the brace that closes it, and what is behind it make up a text. -/
theorem eq_of_closing (h : closing? depth text = some (body, behind)) : text = body ++ '\x7d' :: behind := by
  fun_induction closing? depth text generalizing body behind with
  | case1 => cases h
  | case2 rest =>
    cases h
    rfl
  | case3 rest depth ih =>
    obtain ⟨⟨body', behind'⟩, hrest, heq⟩ := Option.map_eq_some_iff.mp h
    cases heq
    rw [ih hrest, List.cons_append]
  | case4 depth c rest hne ih =>
    obtain ⟨⟨body', behind'⟩, hrest, heq⟩ := Option.map_eq_some_iff.mp h
    cases heq
    rw [ih hrest, List.cons_append]

/-- A body and what is behind it are shorter than the text, by the brace between them. -/
theorem length_lt_of_closing (h : closing? depth text = some (body, behind)) : body.length + behind.length < text.length := by
  rw [eq_of_closing h, List.length_append, List.length_cons]
  omega

/-! ## Openings that wait -/

/-- When a body is closed, no opening waits any more of those in it and the one before it. -/
theorem waiting_of_closing (h : closing? depth text = some (body, behind)) : waiting (depth + 1) text = waiting 0 behind := by
  fun_induction closing? depth text generalizing body behind with
  | case1 => cases h
  | case2 rest =>
    cases h
    simp [waiting]
  | case3 rest depth ih =>
    obtain ⟨⟨body', behind'⟩, hrest, heq⟩ := Option.map_eq_some_iff.mp h
    cases heq
    simpa [waiting] using ih hrest
  | case4 depth c rest hne ih =>
    obtain ⟨⟨body', behind'⟩, hrest, heq⟩ := Option.map_eq_some_iff.mp h
    cases heq
    rw [← ih hrest, waiting, if_neg hne]
    split <;> rfl

/-- Where a body is not closed, some opening waits. -/
theorem waiting_pos_of_closing (h : closing? depth text = none) : 0 < waiting (depth + 1) text := by
  fun_induction closing? depth text with
  | case1 depth => exact Nat.succ_pos depth
  | case2 => cases h
  | case3 rest depth ih =>
    have hrest := ih (Option.map_eq_none_iff.mp h)
    simpa [waiting] using hrest
  | case4 depth c rest hne ih =>
    have hrest := ih (Option.map_eq_none_iff.mp h)
    rw [waiting, if_neg hne]
    cases hopens : opens (c :: rest) with
    | true => simpa [hopens] using hrest
    | false => simpa [hopens] using hrest

/-- A character that opens nothing lets no opening wait. -/
theorem waiting_literal (h : opens (c :: rest) = false) : waiting 0 (c :: rest) = waiting 0 rest := by
  simp [waiting, h]

/-- An opening waits. -/
theorem waiting_opening : waiting 0 ('$' :: '\x7b' :: rest) = waiting 1 rest := by
  simp [waiting, opens]

/-- In a closed text no opening waits. -/
theorem Closed.waiting_eq (h : Closed text) : waiting 0 text = 0 := by
  induction h with
  | nil => rfl
  | literal hopens _ ih => rw [waiting_literal hopens, ih]
  | placeholder hclosing _ ih => rw [waiting_opening, waiting_of_closing hclosing, ih]

/-- The scan of a text at whose end no opening waits closes each placeholder that it opens. By induction on the length of the text, since
the scan goes on behind a placeholder. -/
theorem closed_of_waiting (h : waiting 0 text = 0) : Closed text := by
  induction hlength : text.length using Nat.strongRecOn generalizing text with
  | ind length ih =>
    subst hlength
    cases text with
    | nil => exact .nil
    | cons c rest =>
      cases hopens : opens (c :: rest) with
      | false =>
        rw [waiting_literal hopens] at h
        exact .literal hopens (ih rest.length (by simp) h rfl)
      | true =>
        obtain ⟨inside, heq⟩ := opens_iff.mp hopens
        cases heq
        have hinside : waiting 1 inside = 0 := by
          rw [← waiting_opening]
          exact h
        cases hclosing : closing? 0 inside with
        | none => exact absurd hinside (Nat.ne_of_gt (waiting_pos_of_closing hclosing))
        | some found =>
          obtain ⟨body, behind⟩ := found
          rw [waiting_of_closing hclosing] at hinside
          have hshorter : behind.length < ('$' :: '\x7b' :: inside).length := by
            have hlt := length_lt_of_closing hclosing
            simp only [List.length_cons]
            omega
          exact .placeholder hclosing (ih behind.length hshorter hinside rfl)

/-- A text is closed exactly if no opening waits at its end. -/
theorem closed_iff : Closed text ↔ waiting 0 text = 0 :=
  ⟨Closed.waiting_eq, closed_of_waiting⟩

instance (text : List Char) : Decidable (Closed text) :=
  decidable_of_iff _ closed_iff.symm

/-! ## Where two texts meet -/

/-- What is left of a text is apart from another one where the text is. -/
theorem Apart.of_suffix (h : Apart text more) (hsuffix : rest <:+ text) : Apart rest more := by
  rintro ⟨hlast, hhead⟩
  obtain ⟨before, rfl⟩ := hsuffix
  refine h ⟨?_, hhead⟩
  simp [List.getLast?_append, hlast]

/-- Whether a text begins with an opening depends on its first two characters. -/
theorem opens_append (h : rest ≠ []) : opens (c :: (rest ++ more)) = opens (c :: rest) := by
  cases rest with
  | nil => exact absurd rfl h
  | cons next rest =>
    rw [Bool.eq_iff_iff]
    simp [opens_iff, opening, List.cons_prefix_cons]

/-- A character that opens no placeholder opens none with what follows the text either, if the two are apart. -/
theorem Apart.opens_append (h : Apart (c :: rest) more) (hopens : opens (c :: rest) = false) : opens (c :: (rest ++ more)) = false := by
  by_cases hrest : rest = []
  · subst hrest
    rw [Bool.eq_false_iff, ne_eq, opens_iff]
    rintro ⟨behind, heq⟩
    cases heq
    exact h ⟨rfl, rfl⟩
  · rw [Placeholder.opens_append hrest, hopens]

/-- A body that is closed is closed as well where more follows. -/
theorem closing?_append_more (h : closing? depth text = some (body, behind)) :
    closing? depth (text ++ more) = some (body, behind ++ more) := by
  fun_induction closing? depth text generalizing body behind with
  | case1 => cases h
  | case2 rest =>
    cases h
    simp [closing?]
  | case3 rest depth ih =>
    obtain ⟨⟨body', behind'⟩, hrest, heq⟩ := Option.map_eq_some_iff.mp h
    cases heq
    simp [closing?, ih hrest]
  | case4 depth c rest hne ih =>
    obtain ⟨⟨body', behind'⟩, hrest, heq⟩ := Option.map_eq_some_iff.mp h
    cases heq
    have hmore : rest ≠ [] := by
      rintro rfl
      cases hrest
    simp only [List.cons_append, closing?, if_neg hne, Placeholder.opens_append hmore, ih hrest, Option.map_some]

/-- A character that opens no placeholder is a part of a text by itself. -/
theorem pieces_cons (h : opens (c :: rest) = false) : pieces (c :: rest) = .literal [c] :: pieces rest := by
  simp [pieces, piecesWithin, h]

end Closed

end Placeholder

/-! ## Draws ahead of a text -/

/-- A step into a text as it is where a number of characters follow the text. -/
def Draws.Step.ahead (count : Nat) : Step → Step
  | body behind => body (behind + count)
  | key behind => key (behind + count)
  | value behind => value (behind + count)
  | fallback behind => fallback (behind + count)
  | list name => list name
  | layer earlier => layer earlier

/-- The step into a text that is this one where a number of characters follow the text, if there is one. -/
def Draws.Step.alone? (count : Nat) : Step → Option Step
  | body behind => if count ≤ behind then some (body (behind - count)) else none
  | key behind => if count ≤ behind then some (key (behind - count)) else none
  | value behind => if count ≤ behind then some (value (behind - count)) else none
  | fallback behind => if count ≤ behind then some (fallback (behind - count)) else none
  | list name => some (list name)
  | layer earlier => some (layer earlier)

/-- A step is into a text that is followed by characters exactly if it is that into the whole text. -/
theorem Draws.Step.alone?_eq_some_iff {count : Nat} {first step : Step} : first.alone? count = some step ↔ first = step.ahead count := by
  cases first <;> cases step <;> simp only [alone?, ahead, Option.ite_none_right_eq_some, Option.some.injEq, reduceCtorEq,
    body.injEq, key.injEq, value.injEq, fallback.injEq, and_false, iff_self] <;> omega

/-- A way into a text that is this one where a number of characters follow the text, if there is one. -/
def Draws.alone? (count : Nat) : List Step → Option (List Step)
  | [] => some []
  | step :: way => (step.alone? count).map (· :: way)

namespace Environment

/-- The environment in which a text is expanded that a number of characters follow. -/
def ahead (env : Environment) (count : Nat) : Environment :=
  env.mapWays (Draws.alone? count)

/-- A step into a text that is followed by characters is one into the whole text. -/
theorem toward_ahead (env : Environment) (count : Nat) (step : Draws.Step) :
    (env.ahead count).toward step = env.toward (step.ahead count) := by
  rw [ahead, toward, mapWays_mapWays]
  refine congrArg env.mapWays (funext fun way => ?_)
  cases way with
  | nil => rfl
  | cons first way =>
    have hsame : first = step.ahead count ↔ first.alone? count = some step := Draws.Step.alone?_eq_some_iff.symm
    simp only [Draws.alone?, Draws.behind?, Option.bind_map, hsame]
    cases first.alone? count with
    | none => rfl
    | some alone => simp only [Option.bind_some, Function.comp_apply, Draws.behind?, Option.some.injEq]

/-- In a steady environment it makes no difference what follows a text. -/
theorem ahead_eq_self {env : Environment} [env.Steady] {count : Nat} : env.ahead count = env :=
  mapWays_eq_self

/-- What a part of a text stands for that is followed by characters is what it stands for in the whole text. -/
theorem expandPieceAt_ahead {env : Environment} {whole : String} {visiting : List String} {behind count : Nat} {piece : Piece}
    {expand : Environment → List String → List Char → Except PlaceholderError (List Char)} :
    (env.ahead count).expandPieceAt whole expand visiting (behind, piece) =
      env.expandPieceAt whole expand visiting (behind + count, piece) := by
  cases piece with
  | literal part => rfl
  | placeholder body =>
    simp only [expandPieceAt, expandKeyAt, toward_ahead, Draws.Step.ahead]

section Scan

variable {env : Environment} {whole : String} {depth fuel fuel' : Nat} {visiting : List String}
  {c : Char} {text first second rest body behind : List Char} {piece : Piece} {items : List Piece}
  {stands : Nat × Piece → Except PlaceholderError (List Char)}

/-! ## What parts stand for together -/

/-- The parts of a text take all of its characters. -/
theorem extent_piecesWithin : extent (piecesWithin fuel text) = text.length := by
  fun_induction piecesWithin fuel text with
  | case1 text => rfl
  | case2 => rfl
  | case3 fuel c rest hopens body behind hclosing ih =>
    have heq := congrArg List.length (eq_of_closing hclosing)
    obtain ⟨after, hafter⟩ := opens_iff.mp hopens
    obtain ⟨rfl, rfl⟩ : c = '$' ∧ rest = '\x7b' :: after := by simpa [opening, eq_comm] using hafter
    simp only [List.drop_succ_cons, List.drop_zero, List.length_append, List.length_cons] at heq
    rw [extent, ih, Piece.width, List.length_cons, List.length_cons]
    omega
  | case4 fuel c rest => rfl
  | case5 fuel c rest hopens ih =>
    rw [extent, ih, Piece.width, List.length_cons, List.length_cons, List.length_nil]
    omega

/-- What parts stand for together: the first one, and then the others. -/
theorem flatten_mapM_cons : ((numbered (piece :: items)).mapM stands).map List.flatten = do
    let part ← stands (extent items, piece)
    let others ← ((numbered items).mapM stands).map List.flatten
    return part ++ others := by
  rw [numbered, List.mapM_cons]
  cases stands (extent items, piece) with
  | error error => rfl
  | ok part => cases (numbered items).mapM stands <;> rfl

/-- The bound on the number of parts makes no difference to what they stand for together. -/
theorem flatten_mapM_piecesWithin (hnil : stands (0, .literal []) = .ok []) (hfuel : text.length ≤ fuel)
    (hfuel' : text.length ≤ fuel') : ((numbered (piecesWithin fuel text)).mapM stands).map List.flatten =
      ((numbered (piecesWithin fuel' text)).mapM stands).map List.flatten := by
  induction fuel generalizing fuel' text with
  | zero =>
    obtain rfl : text = [] := List.eq_nil_of_length_eq_zero (Nat.le_zero.mp hfuel)
    cases fuel' with
    | zero => rfl
    | succ fuel' =>
      rw [piecesWithin, flatten_mapM_cons, extent, hnil]
      rfl
  | succ fuel ih =>
    cases text with
    | nil =>
      cases fuel' with
      | zero =>
        simp only [piecesWithin]
        rw [flatten_mapM_cons, extent, hnil]
        rfl
      | succ fuel' => rfl
    | cons c rest =>
      obtain ⟨fuel', rfl⟩ : ∃ less, fuel' = less + 1 := Nat.exists_eq_succ_of_ne_zero (Nat.ne_zero_of_lt hfuel')
      simp only [List.length_cons] at hfuel hfuel'
      unfold piecesWithin
      split
      · split
        case h_1 body behind hclosing =>
          have hlt := length_lt_of_closing hclosing
          simp only [List.length_drop] at hlt
          rw [flatten_mapM_cons, flatten_mapM_cons, ih (by omega) (by omega : behind.length ≤ fuel'), extent_piecesWithin,
            extent_piecesWithin]
        case h_2 => rfl
      · rw [flatten_mapM_cons, flatten_mapM_cons, ih (by omega) (by omega : rest.length ≤ fuel'), extent_piecesWithin,
          extent_piecesWithin]

/-! ## Expansion along a scan -/

/-- A character that opens no placeholder stands for itself. -/
theorem expandWithin_cons (h : opens (c :: text) = false) :
    env.expandWithin whole depth visiting (c :: text) = (env.expandWithin whole depth visiting text).map (c :: ·) := by
  cases depth with
  | zero => rfl
  | succ depth =>
    rw [expandWithin_succ, expandWithin_succ, pieces_cons h, numbered, List.mapM_cons]
    cases (numbered (pieces text)).mapM (env.expandPieceAt whole (Environment.expandWithin whole depth) visiting) <;> rfl

/-- A placeholder that is closed is expanded first, and then what is behind it, with the same keys kept. -/
theorem expandWithin_opening (h : closing? 0 rest = some (body, behind)) :
    env.expandWithin whole (depth + 1) visiting ('$' :: '\x7b' :: rest) = do
      let part ← env.expandPieceAt whole (Environment.expandWithin whole depth) visiting (behind.length, .placeholder body)
      let others ← env.expandWithin whole (depth + 1) visiting behind
      return part ++ others := by
  have hpieces : pieces ('$' :: '\x7b' :: rest) = .placeholder body :: piecesWithin (rest.length + 1) behind := by
    simp [pieces, piecesWithin, opens, h]
  have hlt := length_lt_of_closing h
  rw [expandWithin_succ, expandWithin_succ, hpieces, flatten_mapM_cons, pieces, extent_piecesWithin,
    flatten_mapM_piecesWithin rfl (by omega) (Nat.le_refl behind.length)]

/-- A closed text is expanded first, with the draws ahead of the one behind it, and then this one as if it stood alone. -/
theorem expandWithin_append_of_closed (hclosed : Closed first) (hapart : Apart first second) :
    env.expandWithin whole depth visiting (first ++ second) = do
      let ahead ← (env.ahead second.length).expandWithin whole depth visiting first
      let behind ← env.expandWithin whole depth visiting second
      return ahead ++ behind := by
  cases depth with
  | zero => rfl
  | succ depth =>
    induction hclosed with
    | nil =>
      have hnil : (env.ahead second.length).expandWithin whole (depth + 1) visiting [] = .ok [] := rfl
      rw [hnil, List.nil_append]
      cases env.expandWithin whole (depth + 1) visiting second <;> rfl
    | @literal c rest hopens _ ih =>
      rw [List.cons_append, expandWithin_cons (hapart.opens_append hopens), expandWithin_cons hopens,
        ih (hapart.of_suffix (List.suffix_cons c rest))]
      cases (env.ahead second.length).expandWithin whole (depth + 1) visiting rest with
      | error error => rfl
      | ok ahead => cases env.expandWithin whole (depth + 1) visiting second <;> rfl
    | @placeholder rest body behind hclosing _ ih =>
      have hsuffix : behind <:+ '$' :: '\x7b' :: rest := by
        rw [eq_of_closing hclosing]
        exact ⟨'$' :: '\x7b' :: body ++ ['\x7d'], by simp⟩
      rw [List.cons_append, List.cons_append, expandWithin_opening (closing?_append_more hclosing), expandWithin_opening hclosing,
        ih (hapart.of_suffix hsuffix), expandPieceAt_ahead, List.length_append]
      cases env.expandPieceAt whole (Environment.expandWithin whole depth) visiting (behind.length + second.length, .placeholder body) with
      | error error => rfl
      | ok part =>
        cases (env.ahead second.length).expandWithin whole (depth + 1) visiting behind with
        | error error => rfl
        | ok ahead =>
          cases env.expandWithin whole (depth + 1) visiting second with
          | error error => rfl
          | ok following => exact congrArg Except.ok (List.append_assoc part ahead following).symm

end Scan

end Environment

end Ignition
