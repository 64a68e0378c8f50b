import Ignition.Proofs.Config.Scanning
import Mathlib.Data.Nat.Count
import Mathlib.Data.String.Basic
import Mathlib.Order.Bounds.Basic

/-!
# The brace that closes a placeholder

The brace that closes a body is told by counting: it is the first one with as many closing braces before it as openings (`ClosesAt`). It
is found by a scan, character by character, which keeps the number of openings that wait for their braces (`ScanStep`). The number is never
negative, and wherever the scan gets to it is the difference of the two counts (`difference_of_scan`). Offsets are counted in bytes, and
the scan only gets to places between characters.
-/

namespace Ignition

namespace Text

variable {c : Char} {part text : List Char} {offset : Nat}

/-- A text stands in another one behind some number of bytes. -/
def StandsAt (part text : List Char) (offset : Nat) : Prop :=
  ∃ before behind, text = before ++ part ++ behind ∧ String.utf8Len before = offset

/-- A text stands at an offset exactly if it stands behind some number of characters which take up that many bytes. -/
theorem standsAt_iff : StandsAt part text offset ↔
    ∃ n < text.length + 1, String.utf8Len (text.take n) = offset ∧ part <+: text.drop n := by
  constructor
  · rintro ⟨before, behind, rfl, rfl⟩
    refine ⟨before.length, by simp only [List.length_append]; omega, ?_⟩
    rw [List.append_assoc, List.take_left, List.drop_left]
    exact ⟨rfl, List.prefix_append part behind⟩
  · rintro ⟨n, -, hoffset, behind, hbehind⟩
    exact ⟨text.take n, behind, by rw [List.append_assoc, hbehind, List.take_append_drop], hoffset⟩

instance (part text : List Char) (offset : Nat) : Decidable (StandsAt part text offset) :=
  decidable_of_iff _ standsAt_iff.symm

/-- A text stands at the beginning, or behind the first character in the rest. -/
theorem standsAt_cons : StandsAt part (c :: text) offset ↔
    offset = 0 ∧ part <+: c :: text ∨ ∃ rest, offset = c.utf8Size + rest ∧ StandsAt part text rest := by
  constructor
  · rintro ⟨before, behind, htext, rfl⟩
    cases before with
    | nil => exact .inl ⟨rfl, behind, htext.symm⟩
    | cons first before =>
      cases htext
      exact .inr ⟨String.utf8Len before, by rw [String.utf8Len_cons, Nat.add_comm], before, behind, rfl, rfl⟩
  · rintro (⟨rfl, behind, hbehind⟩ | ⟨rest, rfl, before, behind, rfl, rfl⟩)
    · exact ⟨[], behind, hbehind.symm, rfl⟩
    · exact ⟨c :: before, behind, rfl, by rw [String.utf8Len_cons, Nat.add_comm]⟩

/-- A part stands at the beginning of a text that begins with it. -/
theorem standsAt_zero : StandsAt part (c :: text) 0 ↔ part <+: c :: text := by
  have hpos := c.utf8Size_pos
  rw [standsAt_cons, or_iff_left (by rintro ⟨rest, hrest, -⟩; omega)]
  simp

/-- Behind the bytes of the first character, a part stands where it stands in the rest. -/
theorem standsAt_add : StandsAt part (c :: text) (c.utf8Size + offset) ↔ StandsAt part text offset := by
  have hpos := c.utf8Size_pos
  rw [standsAt_cons, or_iff_right (by omega)]
  simp

/-- Behind the first character a text stands as often as in the rest, and perhaps once more at the beginning. Nothing stands within the
bytes of that character. -/
theorem count_standsAt_cons : Nat.count (StandsAt part (c :: text)) (c.utf8Size + offset) =
    (if part <+: c :: text then 1 else 0) + Nat.count (StandsAt part text) offset := by
  have hfirst : Nat.count (StandsAt part (c :: text)) c.utf8Size = if part <+: c :: text then 1 else 0 := by
    obtain ⟨more, hmore⟩ := Nat.exists_eq_add_one.mpr c.utf8Size_pos
    have hnone : ∀ n < more, ¬StandsAt part (c :: text) (n + 1) := by
      intro n hn hstands
      rcases standsAt_cons.mp hstands with ⟨hzero, -⟩ | ⟨rest, hrest, -⟩ <;> omega
    rw [hmore, Nat.count_succ', Nat.count_of_forall_not hnone, Nat.zero_add]
    simp only [standsAt_zero]
  rw [Nat.count_add, hfirst]
  simp only [standsAt_add]

end Text

namespace Placeholder

open Relation (ReflTransGen)

variable {c : Char} {text rest body behind : List Char} {depth offset : Nat}

/-! ## Counting -/

/-- How many openings begin before an offset. -/
def openingsBefore (text : List Char) (offset : Nat) : Nat :=
  Nat.count (Text.StandsAt opening text) offset

/-- How many closing braces are before an offset. -/
def bracesBefore (text : List Char) (offset : Nat) : Nat :=
  Nat.count (Text.StandsAt ['\x7d'] text) offset

/-- At an offset there is a closing brace, and before it there are as many as there are openings, with some that wait before the text. -/
structure ClosesAt (depth : Nat) (text : List Char) (offset : Nat) : Prop where
  /-- There is a closing brace. -/
  brace : Text.StandsAt ['\x7d'] text offset
  /-- Each opening before it has one. -/
  even : depth + openingsBefore text offset = bracesBefore text offset

/-- A text begins with a closing brace if this is its first character. -/
theorem brace_prefix_iff : ['\x7d'] <+: c :: rest ↔ c = '\x7d' := by
  rw [List.cons_prefix_cons]
  exact ⟨fun h => h.1.symm, fun h => ⟨h.symm, List.nil_prefix⟩⟩

/-- The openings before an offset: perhaps the first one, and those of the rest. -/
theorem openingsBefore_cons : openingsBefore (c :: rest) (c.utf8Size + offset) =
    (if opens (c :: rest) then 1 else 0) + openingsBefore rest offset := by
  simp only [openingsBefore, Text.count_standsAt_cons, opens_iff]

/-- The closing braces before an offset: perhaps the first one, and those of the rest. -/
theorem bracesBefore_cons : bracesBefore (c :: rest) (c.utf8Size + offset) =
    (if c = '\x7d' then 1 else 0) + bracesBefore rest offset := by
  simp only [bracesBefore, Text.count_standsAt_cons, brace_prefix_iff]

/-- Nothing is closed in a text without characters. -/
theorem not_closesAt_nil : ¬ClosesAt depth [] offset := by
  rintro ⟨⟨before, behind, htext, -⟩, -⟩
  simp at htext

/-- Where nothing else is open, the first brace closes. -/
theorem closesAt_zero : ClosesAt 0 ('\x7d' :: rest) 0 :=
  ⟨Text.standsAt_zero.mpr (brace_prefix_iff.mpr rfl), by simp [openingsBefore, bracesBefore]⟩

/-- Behind a character that closes nothing, the same brace closes as in the rest, once the character is counted. -/
theorem closesAt_cons {deeper : Nat} (hnot : c = '\x7d' → depth ≠ 0)
    (hdepth : depth + (if opens (c :: rest) then 1 else 0) = deeper + if c = '\x7d' then 1 else 0) :
    ClosesAt depth (c :: rest) offset ↔ ∃ less, offset = c.utf8Size + less ∧ ClosesAt deeper rest less := by
  constructor
  · rintro ⟨hbrace, heven⟩
    rcases Text.standsAt_cons.mp hbrace with ⟨rfl, hfirst⟩ | ⟨less, rfl, hrest⟩
    · simp only [openingsBefore, bracesBefore, Nat.count_zero, Nat.add_zero] at heven
      exact absurd heven (hnot (brace_prefix_iff.mp hfirst))
    · rw [openingsBefore_cons, bracesBefore_cons] at heven
      exact ⟨less, rfl, hrest, by omega⟩
  · rintro ⟨less, rfl, hbrace, heven⟩
    refine ⟨Text.standsAt_add.mpr hbrace, ?_⟩
    rw [openingsBefore_cons, bracesBefore_cons]
    omega

/-- Where more is open, a brace closes the innermost of it. -/
theorem closesAt_brace : ClosesAt (depth + 1) ('\x7d' :: rest) offset ↔
    ∃ less, offset = Char.utf8Size '\x7d' + less ∧ ClosesAt depth rest less :=
  closesAt_cons (fun _ => Nat.succ_ne_zero depth) (by simp [opens])

/-- Another character may open one more. -/
theorem closesAt_of_ne (h : c ≠ '\x7d') : ClosesAt depth (c :: rest) offset ↔
    ∃ less, offset = c.utf8Size + less ∧ ClosesAt (if opens (c :: rest) then depth + 1 else depth) rest less := by
  refine closesAt_cons (fun heq => absurd heq h) ?_
  rw [if_neg h]
  split <;> rfl

/-- The first brace that closes is at the same place as in the rest, if nothing closes before. -/
theorem isLeast_cons {deeper : Nat}
    (hcons : ∀ {offset}, ClosesAt depth (c :: rest) offset ↔ ∃ less, offset = c.utf8Size + less ∧ ClosesAt deeper rest less)
    (h : IsLeast {offset | ClosesAt deeper rest offset} offset) :
    IsLeast {offset | ClosesAt depth (c :: rest) offset} (offset + c.utf8Size) := by
  refine ⟨hcons.mpr ⟨offset, Nat.add_comm _ _, h.1⟩, fun other hother => ?_⟩
  obtain ⟨less, rfl, hless⟩ := hcons.mp hother
  rw [Nat.add_comm]
  exact Nat.add_le_add_left (h.2 hless) c.utf8Size

/-- The body that is found ends at the first brace that closes. -/
theorem isLeast_of_closing (h : closing? depth text = some (body, behind)) :
    IsLeast {offset | ClosesAt depth text offset} (String.utf8Len body) := by
  fun_induction closing? depth text generalizing body behind with
  | case1 => cases h
  | case2 rest =>
    cases h
    exact ⟨closesAt_zero, fun _ _ => Nat.zero_le _⟩
  | case3 rest depth ih =>
    obtain ⟨⟨body', behind'⟩, hrest, heq⟩ := Option.map_eq_some_iff.mp h
    cases heq
    exact isLeast_cons closesAt_brace (ih hrest)
  | case4 depth c rest hne ih =>
    obtain ⟨⟨body', behind'⟩, hrest, heq⟩ := Option.map_eq_some_iff.mp h
    cases heq
    exact isLeast_cons (closesAt_of_ne hne) (ih hrest)

/-- Where no body is found, no brace closes. -/
theorem not_closesAt_of_closing (h : closing? depth text = none) : ¬ClosesAt depth text offset := by
  fun_induction closing? depth text generalizing offset with
  | case1 => exact not_closesAt_nil
  | case2 => cases h
  | case3 rest depth ih =>
    rw [closesAt_brace]
    rintro ⟨less, -, hless⟩
    exact ih (Option.map_eq_none_iff.mp h) hless
  | case4 depth c rest hne ih =>
    rw [closesAt_of_ne hne]
    rintro ⟨less, -, hless⟩
    exact ih (Option.map_eq_none_iff.mp h) hless

/-! ## The scan -/

/-- The scan for the brace that closes steps over a character. It keeps the number of openings that wait, and does not step over a closing
brace that none waits for. -/
inductive ScanStep : Int × List Char → Int × List Char → Prop where
  | closed {depth : Int} {rest : List Char} : depth ≠ 0 → ScanStep (depth, '\x7d' :: rest) (depth - 1, rest)
  | opened {depth : Int} {c : Char} {rest : List Char} :
      c ≠ '\x7d' → opens (c :: rest) = true → ScanStep (depth, c :: rest) (depth + 1, rest)
  | passed {depth : Int} {c : Char} {rest : List Char} :
      c ≠ '\x7d' → opens (c :: rest) = false → ScanStep (depth, c :: rest) (depth, rest)

/-- A step that begins with no negative number ends with none, and what is found is what is found behind it, with the character that it
steps over in front. -/
theorem ScanStep.closing_eq {after : Int × List Char} (h : ScanStep (depth, text) after) : ∃ (c : Char) (less : Nat),
    text = c :: after.2 ∧ after.1 = less ∧
      closing? depth text = (closing? less after.2).map fun found => (c :: found.1, found.2) := by
  generalize hbefore : ((depth : Int), text) = before at h
  cases h with
  | @closed depth' rest hdepth =>
    cases hbefore
    obtain ⟨less, rfl⟩ := Nat.exists_eq_succ_of_ne_zero (Int.ofNat_ne_zero.mp hdepth)
    exact ⟨_, less, rfl, by simp, by rw [closing?, if_pos rfl]⟩
  | opened hne hopens =>
    cases hbefore
    exact ⟨_, depth + 1, rfl, rfl, by simp only [closing?, if_neg hne, hopens, if_true]⟩
  | passed hne hopens =>
    cases hbefore
    exact ⟨_, depth, rfl, rfl, by simp only [closing?, if_neg hne, hopens, Bool.false_eq_true, if_false]⟩

/-- A step changes the number by what the character adds to the one count or the other. -/
theorem ScanStep.difference {before after : Int × List Char} (h : ScanStep before after) : ∃ c, before.2 = c :: after.2 ∧
    before.1 + (if opens before.2 then 1 else 0) = after.1 + if c = '\x7d' then 1 else 0 := by
  cases h with
  | closed hdepth => exact ⟨_, rfl, by simp [opens]⟩
  | opened hne hopens => exact ⟨_, rfl, by simp [hne, hopens]⟩
  | passed hne hopens => exact ⟨_, rfl, by simp [hne, hopens]⟩

/-- The scan begins with no negative number and never gets to one, and from where it got to it finds the rest of what there is to find. -/
theorem closing_of_scan {after : Int × List Char} (h : ReflTransGen ScanStep (depth, text) after) :
    ∃ (before : List Char) (less : Nat), text = before ++ after.2 ∧ after.1 = less ∧
      closing? depth text = (closing? less after.2).map fun found => (before ++ found.1, found.2) := by
  induction h with
  | refl => exact ⟨[], depth, rfl, rfl, by simp⟩
  | @tail middle after _ hstep ih =>
    obtain ⟨before, less, htext, hless, hclosing⟩ := ih
    obtain ⟨depth', rest⟩ := middle
    cases hless
    obtain ⟨c, least, rfl, hleast, hrest⟩ := hstep.closing_eq
    refine ⟨before ++ [c], least, by rw [htext, List.append_assoc]; rfl, hleast, ?_⟩
    rw [hclosing, hrest, Option.map_map]
    simp [Function.comp_def]

/-- Wherever the scan gets to, its number has grown by the difference of the openings and the closing braces before that place. -/
theorem difference_of_scan {start after : Int × List Char} (h : ReflTransGen ScanStep start after) :
    ∃ before, start.2 = before ++ after.2 ∧
      start.1 + openingsBefore start.2 (String.utf8Len before) = after.1 + bracesBefore start.2 (String.utf8Len before) := by
  induction h using ReflTransGen.head_induction_on with
  | refl => exact ⟨[], rfl, by simp [openingsBefore, bracesBefore]⟩
  | @head start next hstep _ ih =>
    obtain ⟨before, hnext, hcounts⟩ := ih
    obtain ⟨c, hstart, hdifference⟩ := hstep.difference
    refine ⟨c :: before, by rw [hstart, hnext]; rfl, ?_⟩
    rw [hstart] at hdifference ⊢
    rw [String.utf8Len_cons, Nat.add_comm, openingsBefore_cons, bracesBefore_cons]
    push_cast
    split_ifs at hdifference ⊢ <;> omega

/-- A closing brace that an opening waits for is stepped over. -/
theorem ScanStep.closed_succ : ScanStep ((depth + 1 : Nat), '\x7d' :: rest) (depth, rest) := by
  have hstep : ScanStep ((depth + 1 : Nat), '\x7d' :: rest) (((depth + 1 : Nat) : Int) - 1, rest) := .closed (by omega)
  rwa [Int.natCast_succ, Int.add_sub_cancel] at hstep

/-- Any other character is stepped over as well. -/
theorem ScanStep.of_ne (h : c ≠ '\x7d') :
    ScanStep (depth, c :: rest) ((if opens (c :: rest) then depth + 1 else depth : Nat), rest) := by
  cases hopens : opens (c :: rest) with
  | true => exact .opened h hopens
  | false => exact .passed h hopens

/-- The scan gets to the brace behind the body that is found. -/
theorem scan_of_closing (h : closing? depth text = some (body, behind)) :
    ReflTransGen ScanStep (depth, text) (0, '\x7d' :: behind) := by
  fun_induction closing? depth text generalizing body behind with
  | case1 => cases h
  | case2 rest =>
    cases h
    exact .refl
  | case3 rest depth ih =>
    obtain ⟨⟨body', behind'⟩, hrest, heq⟩ := Option.map_eq_some_iff.mp h
    cases heq
    exact .head .closed_succ (ih hrest)
  | case4 depth c rest hne ih =>
    obtain ⟨⟨body', behind'⟩, hrest, heq⟩ := Option.map_eq_some_iff.mp h
    cases heq
    exact .head (.of_ne hne) (ih hrest)

/-- Where no body is found, the scan gets to the end of the text. -/
theorem scan_of_closing_none (h : closing? depth text = none) : ∃ less : Nat, ReflTransGen ScanStep (depth, text) (less, []) := by
  fun_induction closing? depth text with
  | case1 depth => exact ⟨depth, .refl⟩
  | case2 => cases h
  | case3 rest depth ih =>
    obtain ⟨less, hscan⟩ := ih (Option.map_eq_none_iff.mp h)
    exact ⟨less, .head .closed_succ hscan⟩
  | case4 depth c rest hne ih =>
    obtain ⟨less, hscan⟩ := ih (Option.map_eq_none_iff.mp h)
    exact ⟨less, .head (.of_ne hne) hscan⟩

/-- A body is found exactly if the scan gets to a closing brace that no opening waits for, and it is what the scan stepped over. -/
theorem closing_eq_some_iff : closing? depth text = some (body, behind) ↔
    text = body ++ '\x7d' :: behind ∧ ReflTransGen ScanStep (depth, text) (0, '\x7d' :: behind) := by
  refine ⟨fun hclosing => ⟨eq_of_closing hclosing, scan_of_closing hclosing⟩, ?_⟩
  rintro ⟨htext, hscan⟩
  obtain ⟨before, less, hbefore, hless, hclosing⟩ := closing_of_scan hscan
  obtain rfl : before = body := List.append_cancel_right (hbefore.symm.trans htext)
  obtain rfl : less = 0 := (Int.natCast_eq_zero.mp hless.symm)
  rw [hclosing, closing?, if_pos rfl, Option.map_some, List.append_nil]

/-- None is found exactly if the scan gets to the end of the text. -/
theorem closing_eq_none_iff : closing? depth text = none ↔ ∃ after, ReflTransGen ScanStep (depth, text) (after, []) := by
  refine ⟨fun hclosing => ?_, ?_⟩
  · obtain ⟨less, hscan⟩ := scan_of_closing_none hclosing
    exact ⟨less, hscan⟩
  · rintro ⟨after, hscan⟩
    obtain ⟨before, less, -, -, hclosing⟩ := closing_of_scan hscan
    rw [hclosing, closing?, Option.map_none]

/-! ## What is found -/

/-- The offset of the brace that closes a body. -/
def closingOffset? (text : List Char) : Option Nat :=
  (closing? 0 text).map fun found => String.utf8Len found.1

/-- There is no brace to find exactly if no brace closes. -/
theorem closingOffset?_eq_none_iff : closingOffset? text = none ↔ ∀ offset, ¬ClosesAt 0 text offset := by
  rw [closingOffset?, Option.map_eq_none_iff]
  refine ⟨fun hclosing _ => not_closesAt_of_closing hclosing, fun hnone => ?_⟩
  cases hclosing : closing? 0 text with
  | none => rfl
  | some found => exact absurd (isLeast_of_closing hclosing).1 (hnone _)

/-- The brace that is found is the first one that closes. -/
theorem closingOffset?_eq_some_iff : closingOffset? text = some offset ↔ IsLeast {offset | ClosesAt 0 text offset} offset := by
  cases hclosing : closing? 0 text with
  | none =>
    have hnone : closingOffset? text = none := by rw [closingOffset?, hclosing, Option.map_none]
    rw [hnone]
    exact iff_of_false nofun fun hleast => closingOffset?_eq_none_iff.mp hnone offset hleast.1
  | some found =>
    have hleast := isLeast_of_closing hclosing
    rw [closingOffset?, hclosing, Option.map_some, Option.some.injEq]
    exact ⟨fun heq => heq ▸ hleast, fun hother => hleast.unique hother⟩

/-- The text in front of some others ends between characters. -/
theorem isValid_utf8Len (before behind : List Char) :
    String.Pos.Raw.IsValid (String.ofList (before ++ behind)) ⟨String.utf8Len before⟩ :=
  String.Pos.Raw.isValid_iff_exists_append.mpr
    ⟨String.ofList before, String.ofList behind, String.ofList_append, by simp⟩

/-- A closing brace begins and ends between characters. -/
theorem isValid_of_closing (h : closing? depth text = some (body, behind)) :
    String.Pos.Raw.IsValid (String.ofList text) ⟨String.utf8Len body⟩ ∧
    String.Pos.Raw.IsValid (String.ofList text) ⟨String.utf8Len body + 1⟩ := by
  rw [eq_of_closing h]
  refine ⟨isValid_utf8Len body ('\x7d' :: behind), ?_⟩
  have hbehind := isValid_utf8Len (body ++ ['\x7d']) behind
  rwa [List.append_assoc, List.singleton_append, String.utf8Len_append] at hbehind

/-- The brace that closes a body is the first one with as many closing braces before it as openings, and none is found if there is no such
brace. It is found by a scan whose number of waiting openings is the difference of the two counts and never negative, and which ends at the
brace or, if there is none, at the end of the text. The brace begins and ends between characters, so the text can be cut before it and
behind it. -/
theorem closer_of_body (text : List Char) :
    (∀ offset, closingOffset? text = some offset ↔ IsLeast {offset | ClosesAt 0 text offset} offset) ∧
    (closingOffset? text = none ↔ ∀ offset, ¬ClosesAt 0 text offset) ∧
    (∀ body behind, closing? 0 text = some (body, behind) ↔
      text = body ++ '\x7d' :: behind ∧ ReflTransGen ScanStep (0, text) (0, '\x7d' :: behind)) ∧
    (closing? 0 text = none ↔ ∃ depth, ReflTransGen ScanStep (0, text) (depth, [])) ∧
    (∀ depth rest, ReflTransGen ScanStep (0, text) (depth, rest) → 0 ≤ depth ∧ ∃ before, text = before ++ rest ∧
      openingsBefore text (String.utf8Len before) = depth + bracesBefore text (String.utf8Len before)) ∧
    (∀ body behind, closing? 0 text = some (body, behind) →
      String.Pos.Raw.IsValid (String.ofList text) ⟨String.utf8Len body⟩ ∧
      String.Pos.Raw.IsValid (String.ofList text) ⟨String.utf8Len body + 1⟩) := by
  refine ⟨fun _ => closingOffset?_eq_some_iff, closingOffset?_eq_none_iff, fun _ _ => closing_eq_some_iff, closing_eq_none_iff,
    fun depth rest hscan => ?_, fun _ _ => isValid_of_closing⟩
  obtain ⟨_, less, _, hless, _⟩ := @closing_of_scan text 0 _ hscan
  obtain ⟨before, htext, hcounts⟩ := difference_of_scan hscan
  obtain rfl : depth = less := hless
  rw [Int.zero_add] at hcounts
  exact ⟨Int.natCast_nonneg less, before, htext, hcounts⟩

/-- A brace that closes an opening in the body does not close the body. Offsets count bytes. -/
example : closingOffset? "é$\x7ba\x7d\x7db\x7d".toList = some 6 := by decide

end Placeholder

end Ignition
