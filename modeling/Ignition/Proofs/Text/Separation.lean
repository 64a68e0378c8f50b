import Ignition.Proofs.Text.Trimming
import Mathlib.Data.List.Forall2

/-!
# Pieces between separators

The pieces of a text are told without cutting it: they are texts without the separator which make the text when they are joined
(`Separated`). There is one way to have it so, and that is the one in which the text is cut (`separated_iff`). The words of a
comma-separated list are its pieces without the white space around them (`Lists`), those that are empty among them.
-/

namespace Ignition.Text

variable {c : Char} {line rest text : List Char} {pieces : List (List Char)} {list : String} {words : List String}

/-! ## Cutting -/

/-- A text has at least one piece. -/
theorem split_ne_nil : split c text ≠ [] := by
  cases text with
  | nil => simp [split]
  | cons d rest =>
    unfold split
    split
    · simp
    · split <;> simp

/-- A text without the separator is one piece. -/
theorem split_of_notMem (h : c ∉ text) : split c text = [text] := by
  induction text with
  | nil => rfl
  | cons d rest ih =>
    rw [List.mem_cons, not_or] at h
    obtain ⟨hd, hrest⟩ := h
    rw [split, if_neg (Ne.symm hd), ih hrest]

/-- Before the first separator stands the first piece. -/
theorem split_append (h : c ∉ line) : split c (line ++ c :: rest) = line :: split c rest := by
  induction line with
  | nil => rw [List.nil_append, split, if_pos rfl]
  | cons d line ih =>
    rw [List.mem_cons, not_or] at h
    obtain ⟨hd, hline⟩ := h
    rw [List.cons_append, split, if_neg (Ne.symm hd), ih hline]

/-! ## Joining -/

/-- Pieces that make a text with a separator between them which is in none of them. -/
structure Separated (c : Char) (pieces : List (List Char)) (text : List Char) : Prop where
  /-- There is a piece. -/
  ne_nil : pieces ≠ []
  /-- No piece has the separator in it. -/
  notMem : ∀ piece ∈ pieces, c ∉ piece
  /-- With the separator between them the pieces make the text. -/
  join : [c].intercalate pieces = text

/-- One more piece ahead is separated from the others by a separator. -/
theorem Separated.cons (hpiece : c ∉ line) (h : Separated c pieces text) : Separated c (line :: pieces) (line ++ c :: text) := by
  obtain ⟨hne, hnone, rfl⟩ := h
  refine ⟨List.cons_ne_nil _ _, List.forall_mem_cons.mpr ⟨hpiece, hnone⟩, ?_⟩
  cases pieces with
  | nil => exact absurd rfl hne
  | cons next pieces => rw [List.intercalate_cons_cons, List.append_assoc, List.singleton_append]

/-- The pieces that a text is cut into make the text. By induction on the length of the text, of which the first piece is taken off. -/
theorem separated_split (c : Char) (text : List Char) : Separated c (split c text) text := by
  induction hlength : text.length using Nat.strongRecOn generalizing text with
  | ind length ih =>
    subst hlength
    by_cases hmem : c ∈ text
    · obtain ⟨piece, rest, rfl, hpiece⟩ := List.eq_append_cons_of_mem hmem
      have hshorter : rest.length < (piece ++ c :: rest).length := by
        simp only [List.length_append, List.length_cons]
        omega
      rw [split_append hpiece]
      exact (ih rest.length hshorter rest rfl).cons hpiece
    · rw [split_of_notMem hmem]
      exact ⟨List.cons_ne_nil _ _, List.forall_mem_singleton.mpr hmem, List.intercalate_singleton⟩

/-- Pieces that make up a text are those that it is split into. -/
theorem Separated.split_eq (h : Separated c pieces text) : split c text = pieces := by
  obtain ⟨hne, hnone, rfl⟩ := h
  induction pieces with
  | nil => exact absurd rfl hne
  | cons piece pieces ih =>
    rw [List.forall_mem_cons] at hnone
    cases pieces with
    | nil => rw [List.intercalate_singleton, split_of_notMem hnone.1]
    | cons next pieces =>
      rw [List.intercalate_cons_cons, List.append_assoc, List.singleton_append, split_append hnone.1,
        ih (List.cons_ne_nil _ _) hnone.2]

/-- A text is made up of the pieces that it is split into, and of no others. -/
theorem separated_iff : Separated c pieces text ↔ split c text = pieces := by
  constructor
  · exact Separated.split_eq
  · rintro rfl
    exact separated_split c text

/-! ## Words -/

/-- The words of a comma-separated list: what is between the commas, without the white space around it. -/
def Lists (list : String) (words : List String) : Prop :=
  ∃ pieces, Separated ',' pieces list.toList ∧ List.Forall₂ (fun piece word => Trims piece word.toList) pieces words

/-- A list has the words that stand between its commas, without the blanks around them. -/
theorem lists_iff : Lists list words ↔ (split ',' list.toList).map (fun piece => String.ofList (trim piece)) = words := by
  have hwords (pieces : List (List Char)) : List.Forall₂ (fun piece word => Trims piece word.toList) pieces words ↔
      pieces.map (fun piece => String.ofList (trim piece)) = words := by
    rw [← List.forall₂_eq_eq_eq, List.forall₂_map_left_iff]
    simp only [trims_iff, ← String.toList_inj, String.toList_ofList]
  simp only [Lists, separated_iff, hwords, exists_eq_left']

/-- The entries of a list are its words that are not empty. -/
theorem Lists.listEntries_eq (h : Lists list words) : listEntries list = words.filter (· ≠ "") := by
  rw [← lists_iff.mp h, listEntries, List.filter_map, List.filter_map, List.map_map]
  refine congrArg (List.map _) (List.filter_congr fun piece _ => ?_)
  rw [Bool.eq_iff_iff]
  simp

end Ignition.Text
