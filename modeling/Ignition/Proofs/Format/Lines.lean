import Ignition.Format.Properties
import Ignition.Proofs.Text.Separation
import Mathlib.Data.List.Basic
import Mathlib.Data.List.Induction

/-!
# Lines and logical lines

A text is cut at its line feeds, so the lines of two texts that a line feed keeps apart are those of the one and then those of the other
(`Text.lines_append_feed`). Some lines of a properties file leave a logical line open for the lines behind them or not (`openBehind`); a
logical line begins on each line that is not skipped where none is open, and it takes in lines up to the first one that is not
continued (`joined`). So the reader finds exactly the logical lines that begin on some line, each with the number of that line
(`mem_logicalLines_iff`).
-/

namespace Ignition

namespace Text

section Lines

variable {c : Char} {line text rest : List Char}

/-! ## Lines -/

/-- A line without the carriage return that belongs to its end. -/
def withoutReturn (line : List Char) : List Char :=
  if line.getLast? = some '\r' then line.dropLast else line

/-- A line that does not end with a carriage return is left as it is. -/
theorem withoutReturn_of_ne (h : line.getLast? ≠ some '\r') : withoutReturn line = line :=
  if_neg h

/-- What stands before a line makes no difference to the carriage return at its end. -/
theorem withoutReturn_append (h : line ≠ []) : withoutReturn (text ++ line) = text ++ withoutReturn line := by
  have hlast : (text ++ line).getLast? = line.getLast? := by
    rw [List.getLast?_append, List.getLast?_eq_some_getLast h]
    rfl
  unfold withoutReturn
  rw [hlast]
  split
  · exact List.dropLast_append_of_ne_nil h
  · rfl

/-- A first character other than the carriage return stays. -/
theorem withoutReturn_cons (h : c ≠ '\r') : withoutReturn (c :: line) = c :: withoutReturn line := by
  by_cases hline : line = []
  · subst hline
    exact withoutReturn_of_ne (by simpa using h)
  · have happend : withoutReturn ([c] ++ line) = [c] ++ withoutReturn line := withoutReturn_append hline
    exact happend

/-- A text without line breaks is one line. -/
theorem lines_of_notMem (h : '\n' ∉ line) (hne : line ≠ []) : lines line = [line] := by
  unfold lines
  rw [split_of_notMem h]
  cases line with
  | nil => exact absurd rfl hne
  | cons c line => rfl

/-- A line that ends is the first one, in front of those behind its line feed. -/
theorem lines_append (h : '\n' ∉ line) : lines (line ++ '\n' :: rest) = withoutReturn line :: lines rest := by
  have hdrop : (line :: split '\n' rest).dropLast = line :: (split '\n' rest).dropLast :=
    List.dropLast_cons_of_ne_nil split_ne_nil
  have hlast : (line :: split '\n' rest).getLast? = (split '\n' rest).getLast? := by
    rw [List.getLast?_cons, List.getLast?_eq_some_getLast split_ne_nil]
    rfl
  unfold lines
  rw [split_append h]
  dsimp only
  rw [hdrop, hlast]
  split <;> rfl

/-- The lines up to a line feed are those of the text up to there. By induction on the length of the text, of which the first line is taken
off. -/
theorem lines_append_feed (text rest : List Char) : lines (text ++ '\n' :: rest) = lines (text ++ ['\n']) ++ lines rest := by
  induction hlength : text.length using Nat.strongRecOn generalizing text with
  | ind length ih =>
    subst hlength
    by_cases hfeed : '\n' ∈ text
    · obtain ⟨line, others, rfl, hline⟩ := List.eq_append_cons_of_mem hfeed
      have hshorter : others.length < (line ++ '\n' :: others).length := by
        simp only [List.length_append, List.length_cons]
        omega
      have hothers := ih others.length hshorter others rfl
      rw [List.append_assoc, List.cons_append, lines_append hline, hothers, List.append_assoc, List.cons_append,
        lines_append hline, List.cons_append]
    · rw [lines_append hfeed, lines_append hfeed]
      rfl

end Lines

end Text

namespace Properties

/-! ## Backslashes at the end -/

section Backslashes

variable {text more : List Char} {c : Char}

/-- How many backslashes a text ends with. -/
def backslashes (text : List Char) : Nat :=
  (text.reverse.takeWhile (· = '\\')).length

/-- A line is not continued if the number of backslashes at its end is even. -/
theorem isContinued_eq_false_iff : isContinued text = false ↔ backslashes text % 2 = 0 := by
  have hsame : isContinued text = decide (backslashes text % 2 = 1) := rfl
  rw [hsame, decide_eq_false_iff_not]
  omega

theorem isContinued_nil : isContinued [] = false :=
  rfl

/-- One backslash more makes an odd number out of an even one, and any other character leaves none. -/
theorem isContinued_concat (text : List Char) (c : Char) : isContinued (text ++ [c]) = (decide (c = '\\') && !isContinued text) := by
  have hcount (line : List Char) : isContinued line = decide (backslashes line % 2 = 1) := rfl
  by_cases hc : c = '\\'
  · have hmore : backslashes (text ++ [c]) = backslashes text + 1 := by simp [backslashes, hc]
    rw [hcount, hcount, hmore]
    rcases Nat.mod_two_eq_zero_or_one (backslashes text) with heven | hodd
    · have hnext : (backslashes text + 1) % 2 = 1 := by omega
      simp [hc, heven, hnext]
    · have hnext : (backslashes text + 1) % 2 = 0 := by omega
      simp [hc, hodd, hnext]
  · have hnone : backslashes (text ++ [c]) = 0 := by simp [backslashes, hc]
    simp [hcount, hnone, hc]

/-- A line without backslashes is not continued. -/
theorem isContinued_of_notMem (h : '\\' ∉ text) : isContinued text = false := by
  rcases List.eq_nil_or_concat' text with rfl | ⟨before, c, rfl⟩
  · rfl
  · have hc : c ≠ '\\' := by
      rintro rfl
      simp at h
    rw [isContinued_concat, decide_eq_false hc, Bool.false_and]

/-- A line of one other character is not continued. -/
theorem isContinued_singleton (h : c ≠ '\\') : isContinued [c] = false :=
  isContinued_of_notMem (by simpa using h.symm)

/-- A character behind a backslash escapes nothing. -/
theorem isContinued_escaped : isContinued ['\\', c] = false := by
  have hodd : isContinued ['\\'] = true := rfl
  rw [← List.singleton_append, isContinued_concat, hodd, Bool.not_true, Bool.and_false]

/-- Behind an even number of backslashes a text ends as it does by itself. -/
theorem isContinued_append (h : isContinued text = false) : isContinued (text ++ more) = isContinued more := by
  induction more using List.reverseRecOn with
  | nil => rw [List.append_nil, h, isContinued_nil]
  | append_singleton more c ih => rw [← List.append_assoc, isContinued_concat, isContinued_concat, ih]

end Backslashes

/-! ## Logical lines -/

section LogicalLines

/-- The logical line that is open with a text behind it, or one of that text which begins on the line with a number if none is open. -/
def extended (pending : Option LogicalLine) (number : Nat) (text : List Char) : LogicalLine :=
  match pending with
  | none => ⟨number, text⟩
  | some begun => { begun with text := begun.text ++ text }

/-- Whether a logical line is open behind some lines; `isOpen` says whether one is open before them. -/
def openBehind (isOpen : Bool) : List (List Char) → Bool
  | [] => isOpen
  | line :: rest =>
    let line := Text.trimLeft line
    openBehind ((isOpen || !isSkipped line) && isContinued line) rest

/-- What a logical line takes from some lines: those up to the first one that is not continued, each without its leading white space
and without the backslash that continues it. -/
def joined : List (List Char) → List Char
  | [] => []
  | line :: rest =>
    let line := Text.trimLeft line
    if isContinued line then line.dropLast ++ joined rest else line

/-- A logical line begins on one of some lines, the first of which has the number given: none is open there, and the line is not
skipped. -/
def Begins (isOpen : Bool) (number : Nat) (lines : List (List Char)) (line : LogicalLine) : Prop :=
  ∃ before first more, lines = before ++ first :: more ∧ openBehind isOpen before = false ∧
    isSkipped (Text.trimLeft first) = false ∧ line = ⟨number + before.length, joined (first :: more)⟩

variable {pending : Option LogicalLine} {number : Nat} {first : List Char} {lines rest : List (List Char)} {line : LogicalLine}
  {isOpen : Bool}

/-! ### One line -/

/-- A line that is skipped has no logical line. -/
theorem logicalLines_of_skipped (h : isSkipped (Text.trimLeft first) = true) :
    logicalLines none number (first :: rest) = logicalLines none (number + 1) rest := by
  simp [logicalLines, h]

/-- A line that is continued is taken into the logical line, which stays open. -/
theorem logicalLines_of_continued (htaken : pending.isSome = true ∨ isSkipped (Text.trimLeft first) = false)
    (h : isContinued (Text.trimLeft first) = true) : logicalLines pending number (first :: rest) =
      logicalLines (some (extended pending number (Text.trimLeft first).dropLast)) (number + 1) rest := by
  cases pending with
  | none =>
    have hskipped : isSkipped (Text.trimLeft first) = false := by simpa using htaken
    simp [logicalLines, hskipped, h, extended]
  | some begun => simp [logicalLines, h, extended]

/-- Any other line ends the logical line. -/
theorem logicalLines_of_ended (htaken : pending.isSome = true ∨ isSkipped (Text.trimLeft first) = false)
    (h : isContinued (Text.trimLeft first) = false) : logicalLines pending number (first :: rest) =
      extended pending number (Text.trimLeft first) :: logicalLines none (number + 1) rest := by
  cases pending with
  | none =>
    have hskipped : isSkipped (Text.trimLeft first) = false := by simpa using htaken
    simp [logicalLines, hskipped, h, extended]
  | some begun => simp [logicalLines, h, extended]

/-- A line is taken, or it is skipped where no line is open. -/
theorem taken_or_skipped (pending : Option LogicalLine) (first : List Char) :
    (pending.isSome = true ∨ isSkipped (Text.trimLeft first) = false) ∨ pending = none ∧ isSkipped (Text.trimLeft first) = true := by
  cases pending with
  | some begun => exact .inl (.inl rfl)
  | none =>
    cases hskipped : isSkipped (Text.trimLeft first) with
    | true => exact .inr ⟨rfl, rfl⟩
    | false => exact .inl (.inr rfl)

/-- Behind a line that is taken a line is open if this one is continued. -/
theorem openBehind_cons_of_taken (h : isOpen = true ∨ isSkipped (Text.trimLeft first) = false) :
    openBehind isOpen (first :: rest) = openBehind (isContinued (Text.trimLeft first)) rest := by
  have htaken : (isOpen || !isSkipped (Text.trimLeft first)) = true := by
    rcases h with h | h <;> simp [h]
  rw [openBehind, htaken, Bool.true_and]

/-- Behind a line that is skipped no line is open, as before. -/
theorem openBehind_cons_of_skipped (h : isSkipped (Text.trimLeft first) = true) :
    openBehind false (first :: rest) = openBehind false rest := by
  simp [openBehind, h]

/-- Some lines are read first, and then those behind them, with the logical line that is still open if there is one. -/
theorem exists_logicalLines_append (pending : Option LogicalLine) (number : Nat) (lines : List (List Char)) :
    ∃ closed pending', pending'.isSome = openBehind pending.isSome lines ∧
      ∀ more, logicalLines pending number (lines ++ more) = closed ++ logicalLines pending' (number + lines.length) more := by
  induction lines generalizing pending number with
  | nil => exact ⟨[], pending, rfl, fun more => rfl⟩
  | cons first rest ih =>
    have hnumber : number + (first :: rest).length = number + 1 + rest.length := by
      rw [List.length_cons]
      omega
    rw [hnumber]
    rcases taken_or_skipped pending first with htaken | ⟨rfl, hskipped⟩
    · rw [openBehind_cons_of_taken htaken]
      cases hcontinued : isContinued (Text.trimLeft first) with
      | true =>
        obtain ⟨closed, pending', hopen, hmore⟩ :=
          ih (some (extended pending number (Text.trimLeft first).dropLast)) (number + 1)
        refine ⟨closed, pending', hopen, fun more => ?_⟩
        rw [List.cons_append, logicalLines_of_continued htaken hcontinued, hmore]
      | false =>
        obtain ⟨closed, pending', hopen, hmore⟩ := ih none (number + 1)
        refine ⟨extended pending number (Text.trimLeft first) :: closed, pending', hopen, fun more => ?_⟩
        rw [List.cons_append, logicalLines_of_ended htaken hcontinued, hmore, List.cons_append]
    · obtain ⟨closed, pending', hopen, hmore⟩ := ih none (number + 1)
      refine ⟨closed, pending', ?_, fun more => ?_⟩
      · rw [Option.isSome_none, openBehind_cons_of_skipped hskipped]
        exact hopen
      · rw [List.cons_append, logicalLines_of_skipped hskipped, hmore]

/-! ### Where logical lines begin -/

/-- A continued line is joined without its backslash, and what follows is joined to it. -/
theorem joined_of_continued (h : isContinued (Text.trimLeft first) = true) :
    joined (first :: rest) = (Text.trimLeft first).dropLast ++ joined rest :=
  if_pos h

/-- A line that is not continued ends what is joined. -/
theorem joined_of_ended (h : isContinued (Text.trimLeft first) = false) : joined (first :: rest) = Text.trimLeft first :=
  if_neg (Bool.eq_false_iff.mp h)

/-- No logical line begins where there are no lines. -/
theorem not_begins_nil : ¬Begins isOpen number [] line := by
  rintro ⟨before, first, more, h, -⟩
  simp at h

/-- A logical line begins on the first line or on one behind it. -/
theorem begins_cons : Begins isOpen number (first :: rest) line ↔
    (isOpen = false ∧ isSkipped (Text.trimLeft first) = false ∧ line = ⟨number, joined (first :: rest)⟩) ∨
      Begins ((isOpen || !isSkipped (Text.trimLeft first)) && isContinued (Text.trimLeft first)) (number + 1) rest line := by
  have hnumber (before : List (List Char)) : number + (first :: before).length = number + 1 + before.length := by
    rw [List.length_cons]
    omega
  constructor
  · rintro ⟨before, start, more, hlines, hopen, hskipped, rfl⟩
    cases before with
    | nil =>
      cases hlines
      exact .inl ⟨hopen, hskipped, rfl⟩
    | cons other before =>
      cases hlines
      exact .inr ⟨before, start, more, rfl, hopen, hskipped, by rw [hnumber]⟩
  · rintro (⟨hopen, hskipped, rfl⟩ | ⟨before, start, more, rfl, hopen, hskipped, rfl⟩)
    · exact ⟨[], first, rest, rfl, hopen, hskipped, rfl⟩
    · exact ⟨first :: before, start, more, rfl, hopen, hskipped, by rw [hnumber]⟩

/-- A logical line begins at a line that is still to come. -/
theorem Begins.number_le (h : Begins isOpen number lines line) : number ≤ line.number := by
  obtain ⟨before, first, more, -, -, -, rfl⟩ := h
  exact Nat.le_add_right number before.length

/-- The reader finds the logical line that is open before some lines, with what it takes from them, and those that begin on them. -/
theorem mem_logicalLines : line ∈ logicalLines pending number lines ↔
    (∃ begun ∈ pending, line = { begun with text := begun.text ++ joined lines }) ∨ Begins pending.isSome number lines line := by
  induction lines generalizing pending number with
  | nil => cases pending <;> simp [logicalLines, joined, not_begins_nil]
  | cons first rest ih =>
    rw [begins_cons]
    cases pending with
    | none =>
      cases hskipped : isSkipped (Text.trimLeft first) with
      | true => simp [logicalLines, hskipped, ih]
      | false =>
        cases hcontinued : isContinued (Text.trimLeft first) with
        | true => simp [logicalLines, hskipped, hcontinued, ih, joined_of_continued]
        | false => simp [logicalLines, hskipped, hcontinued, ih, joined_of_ended]
    | some begun =>
      cases hcontinued : isContinued (Text.trimLeft first) with
      | true => simp [logicalLines, hcontinued, ih, joined_of_continued]
      | false => simp [logicalLines, hcontinued, ih, joined_of_ended]

/-- The logical lines of a text are those that begin on its lines. -/
theorem mem_logicalLines_iff : line ∈ logicalLines none 1 lines ↔ Begins false 1 lines line := by
  simp [mem_logicalLines]

/-- They are found in the order of their numbers. -/
theorem pairwise_logicalLines (h : ∀ begun ∈ pending, begun.number < number) :
    (logicalLines pending number lines).Pairwise (·.number < ·.number) := by
  induction lines generalizing pending number with
  | nil => cases pending <;> simp [logicalLines]
  | cons first rest ih =>
    have hnone : (logicalLines none (number + 1) rest).Pairwise (·.number < ·.number) := ih (by simp)
    rcases taken_or_skipped pending first with htaken | ⟨rfl, hskipped⟩
    · have hnumber (text : List Char) : (extended pending number text).number < number + 1 := by
        cases pending with
        | none => exact Nat.lt_succ_self number
        | some begun => exact Nat.lt_succ_of_lt (h begun rfl)
      cases hcontinued : isContinued (Text.trimLeft first) with
      | true =>
        rw [logicalLines_of_continued htaken hcontinued]
        refine ih fun begun hbegun => ?_
        cases hbegun
        exact hnumber _
      | false =>
        rw [logicalLines_of_ended htaken hcontinued]
        refine List.pairwise_cons.mpr ⟨fun line hline => ?_, hnone⟩
        have hbegins : Begins false (number + 1) rest line := by simpa [mem_logicalLines] using hline
        exact Nat.lt_of_lt_of_le (hnumber _) hbegins.number_le
    · rw [logicalLines_of_skipped hskipped]
      exact hnone

end LogicalLines

/-! ## Entries -/

/-- The part of a logical line that is its key. -/
def keyPart (text : List Char) : List Char :=
  (splitKey text).1

/-- The part of a logical line that is its value. -/
def valuePart (text : List Char) : List Char :=
  dropSeparator (splitKey text).2

/-- The entry of a logical line, part by part: an escape that is malformed in either part is an error that names the line. -/
theorem entry_eq (line : LogicalLine) : line.entry =
    match unescape? (keyPart line.text), unescape? (valuePart line.text) with
    | some key, some value => .ok (String.ofList key, String.ofList value)
    | _, _ => .error (.malformedUnicodeEscape line.number) :=
  rfl

end Properties

end Ignition
