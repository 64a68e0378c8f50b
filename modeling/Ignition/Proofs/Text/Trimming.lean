import Ignition.Text.Blank
import Mathlib.Data.List.TakeWhile

/-!
# What trimming leaves

White space is trimmed up to the first other character, from the left and then from the right. So trimming leaves a word of a text exactly
if the text is that word with white space around it and the word neither begins nor ends with any (`trims_iff`); of a word without white
space only the first has to be said (`trim_eq_iff`).
-/

namespace Ignition.Text

variable {c : Char} {line more blanks text word : List Char}

/-- Blanks at the beginning are dropped. -/
theorem trimLeft_of_blank (h : ∀ c ∈ blanks, isBlank c = true) : trimLeft (blanks ++ text) = trimLeft text :=
  List.dropWhile_append_of_pos h

/-- Nothing is dropped ahead of a character that is not blank. -/
theorem trimLeft_cons (h : isBlank c = false) : trimLeft (c :: text) = c :: text :=
  List.dropWhile_cons_of_neg (by simp [h])

/-- Of a line that is not blank something is left. -/
theorem trimLeft_ne_nil (h : ∃ c ∈ line, isBlank c = false) : trimLeft line ≠ [] := by
  intro hnil
  obtain ⟨c, hc, hblank⟩ := h
  have hall := List.dropWhile_eq_nil_iff.mp hnil c hc
  rw [hall] at hblank
  cases hblank

/-- White space is trimmed up to the first other character, whatever stands behind that. -/
theorem trimLeft_append (h : ∃ c ∈ line, isBlank c = false) : trimLeft (line ++ more) = trimLeft line ++ more := by
  have hne := trimLeft_ne_nil h
  unfold trimLeft at hne ⊢
  rw [List.dropWhile_append, if_neg (by simpa using hne)]

/-- White space is taken off in front, and nothing else. -/
theorem exists_trimLeft (text : List Char) : ∃ blanks, text = blanks ++ trimLeft text ∧ ∀ c ∈ blanks, isBlank c = true :=
  ⟨text.takeWhile isBlank, List.takeWhile_append_dropWhile.symm, fun _ hc => List.mem_takeWhile_imp hc⟩

/-- A text is a word with white space around it. -/
def Padded (word text : List Char) : Prop :=
  ∃ left right, text = left ++ word ++ right ∧ (∀ c ∈ left, isBlank c = true) ∧ ∀ c ∈ right, isBlank c = true

/-- White space is taken off behind, and nothing else, once it is taken off in front. -/
theorem exists_trim (text : List Char) : ∃ blanks, trimLeft text = trim text ++ blanks ∧ ∀ c ∈ blanks, isBlank c = true := by
  obtain ⟨blanks, hblanks, hblank⟩ := exists_trimLeft (trimLeft text).reverse
  refine ⟨blanks.reverse, ?_, fun c hc => hblank c (List.mem_reverse.mp hc)⟩
  rw [trim, ← List.reverse_append, ← hblanks, List.reverse_reverse]

/-- White space is taken off at both ends, and nothing else. -/
theorem padded_trim (text : List Char) : Padded (trim text) text := by
  obtain ⟨left, hleft, hblank⟩ := exists_trimLeft text
  obtain ⟨right, hright, hblank'⟩ := exists_trim text
  refine ⟨left, right, ?_, hblank, hblank'⟩
  rw [List.append_assoc, ← hright, ← hleft]

/-- Of a blank text nothing is left. -/
theorem trim_of_blank (h : ∀ c ∈ text, isBlank c = true) : trim text = [] := by
  rw [trim, show trimLeft text = [] from List.dropWhile_eq_nil_iff.mpr h]
  rfl

/-- A text that begins with no white space has none taken off in front. -/
theorem trimLeft_of_head (h : ∀ c ∈ text.head?, isBlank c = false) : trimLeft text = text := by
  cases text with
  | nil => rfl
  | cons c rest => exact trimLeft_cons (h c rfl)

/-- What is left does not begin with a blank. -/
theorem head_trimLeft (text : List Char) : ∀ c ∈ (trimLeft text).head?, isBlank c = false := by
  intro c hc
  have hhead := List.head?_dropWhile_not isBlank text
  rw [trimLeft, Option.mem_def] at hc
  rwa [hc] at hhead

/-- White space at the ends is taken off up to a word that begins and ends with other characters. -/
theorem trim_append {left right : List Char} (hleft : ∀ c ∈ left, isBlank c = true) (hright : ∀ c ∈ right, isBlank c = true)
    (hhead : ∀ c ∈ word.head?, isBlank c = false) (hlast : ∀ c ∈ word.getLast?, isBlank c = false) :
    trim (left ++ word ++ right) = word := by
  cases word with
  | nil =>
    rw [List.append_nil]
    exact trim_of_blank fun c hc => (List.mem_append.mp hc).elim (hleft c) (hright c)
  | cons c word =>
    have hfront : trimLeft (left ++ c :: word ++ right) = c :: word ++ right := by
      rw [List.append_assoc, trimLeft_of_blank hleft]
      exact trimLeft_cons (hhead c rfl)
    have hback : trimLeft (c :: word ++ right).reverse = (c :: word).reverse := by
      rw [List.reverse_append, trimLeft_of_blank fun c hc => hright c (List.mem_reverse.mp hc)]
      exact trimLeft_of_head (List.head?_reverse ▸ hlast)
    rw [trim, hfront, hback, List.reverse_reverse]

/-- A word without white space is what trimming leaves exactly where it stands with white space around it. -/
theorem trim_eq_iff (hword : ∀ c ∈ word, isBlank c = false) : trim text = word ↔ Padded word text := by
  constructor
  · rintro rfl
    exact padded_trim text
  · rintro ⟨left, right, rfl, hleft, hright⟩
    exact trim_append hleft hright (fun c hc => hword c (List.mem_of_head? hc)) fun c hc => hword c (List.mem_of_getLast? hc)

/-- A word is what is left of a text without the white space at its ends: the text is the word with white space around it, and the word
neither begins nor ends with any. -/
structure Trims (text word : List Char) : Prop where
  /-- The text is the word with white space around it. -/
  padded : Padded word text
  /-- The word begins with no white space. -/
  head : ∀ c ∈ word.head?, isBlank c = false
  /-- The word ends with no white space. -/
  last : ∀ c ∈ word.getLast?, isBlank c = false

/-- A text without the blanks around it is what trimming leaves. -/
theorem trims_trim (text : List Char) : Trims text (trim text) := by
  refine ⟨padded_trim text, fun c hc => ?_, fun c hc => ?_⟩
  · -- What is taken off behind is behind the first character that is left, if there is one.
    obtain ⟨blanks, hblanks, -⟩ := exists_trim text
    refine head_trimLeft text c ?_
    rw [hblanks, List.head?_append, Option.mem_def.mp hc]
    rfl
  · rw [trim, List.getLast?_reverse] at hc
    exact head_trimLeft _ c hc

/-- And nothing else is. -/
theorem trims_iff : Trims text word ↔ trim text = word := by
  constructor
  · rintro ⟨⟨left, right, rfl, hleft, hright⟩, hhead, hlast⟩
    exact trim_append hleft hright hhead hlast
  · rintro rfl
    exact trims_trim text

end Ignition.Text
