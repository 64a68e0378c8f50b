import Ignition.Format.Formats
import Mathlib.Data.List.Basic

/-!
# Which documents are refused

A document has to be a mapping, or empty. The first one whose root is a sequence, or a scalar with a value, is at fault, and its number
counts the empty ones before it; without one, the entries of the documents that have any come back in order (`outcome_of_documents`).

A root under a tag is never looked at: there is no fault under a tag, whatever stands there.
-/

namespace Ignition.Yaml

namespace Value

/-- A value without names for what it holds: a sequence, or a scalar that is not null. A tag hides what is under it. -/
def isNameless : Value → Bool
  | .scalar .null | .mapping _ | .tagged .. => false
  | .scalar _ | .sequence _ => true

variable {value : Value}

/-- Without its tags a value is under none. -/
theorem untagged_ne_tagged (value : Value) {tag : String} {inner : Value} : value.untagged ≠ .tagged tag inner := by
  induction value using untagged.induct with
  | case1 _ value ih => rwa [untagged]
  | case2 value hvalue =>
    rw [untagged]
    · exact hvalue tag inner
    · exact hvalue

/-- What is nameless has no tags around it. -/
theorem untagged_eq_of_isNameless (h : value.isNameless = true) : value.untagged = value := by
  cases value with
  | tagged tag value => cases h
  | _ => rfl

theorem isNameless_iff : value.isNameless = true ↔ value.untagged.isNameless = true ∧ value.untagged = value := by
  constructor
  · intro h
    have heq := untagged_eq_of_isNameless h
    exact ⟨heq.symm ▸ h, heq⟩
  · rintro ⟨h, heq⟩
    rwa [heq] at h

end Value

/-- The entries of the documents that have any, in order. -/
def entriesOf (values : List Value) : List Entries :=
  (values.map (·.flatten "")).filter fun entries => !entries.isEmpty

/-- A document without entries is left out. -/
theorem entriesOf_cons (value : Value) (rest : List Value) :
    entriesOf (value :: rest) =
      if (value.flatten "").isEmpty then entriesOf rest else value.flatten "" :: entriesOf rest := by
  rw [entriesOf, List.map_cons, List.filter_cons]
  cases (value.flatten "").isEmpty <;> rfl

/-- What documents come to if some values are at fault: the first of these is reported, and else the entries come back. -/
def outcome (isFault : Value → Bool) (values : List Value) : Except Error (List Entries) :=
  match values.findIdx? isFault with
  | some index => .error (.notMapping index)
  | none => .ok (entriesOf values)

/-- One document: it is at fault if it is nameless, and else its entries, if it has any, go ahead of the later ones. What stands under tags
is taken in the same way whatever it is. -/
theorem entriesOfValues_cons (index : Nat) (value : Value) (rest : List Value) :
    entriesOfValues index (value :: rest) =
      if value.isNameless then .error (.notMapping index)
      else (entriesOfValues (index + 1) rest).map fun later =>
        if (value.flatten "").isEmpty then later else value.flatten "" :: later := by
  cases value with
  | tagged tag value =>
    have htaken : entriesOfValues index (.tagged tag value :: rest) = do
        let later ← entriesOfValues (index + 1) rest
        let entries := (Value.tagged tag value).flatten ""
        return if entries.isEmpty then later else entries :: later := by
      rw [entriesOfValues.eq_def]
      simp only [Value.untagged]
      cases h : value.untagged with
      | tagged other inner => exact absurd h value.untagged_ne_tagged
      | _ => rfl
    rw [htaken]
    rfl
  | scalar scalar =>
    cases scalar with
    | null =>
      simp only [entriesOfValues, Value.untagged]
      cases entriesOfValues (index + 1) rest <;> rfl
    | _ => rfl
  | _ => rfl

/-- The documents from one on: the first nameless one is at fault, and its number counts from that one. -/
theorem entriesOfValues_eq (index : Nat) (values : List Value) :
    entriesOfValues index values =
      match values.findIdx? Value.isNameless with
      | some count => .error (.notMapping (index + count))
      | none => .ok (entriesOf values) := by
  induction values generalizing index with
  | nil => rfl
  | cons value rest ih =>
    rw [entriesOfValues_cons, List.findIdx?_cons]
    split
    · rfl
    · rw [ih]
      cases rest.findIdx? Value.isNameless with
      | none => rw [Option.map_none, entriesOf_cons]; rfl
      | some count =>
        change Except.error (Error.notMapping (index + 1 + count)) = .error (.notMapping (index + (count + 1)))
        rw [Nat.add_right_comm, Nat.add_assoc]

theorem entriesOfValues_eq_outcome (values : List Value) : entriesOfValues 0 values = outcome Value.isNameless values := by
  rw [entriesOfValues_eq, outcome]
  simp only [Nat.zero_add]

/-- Two kinds of faults come to the same exactly if the first document at fault is the same. -/
theorem outcome_eq_iff {isFault isOther : Value → Bool} {values : List Value} :
    outcome isFault values = outcome isOther values ↔ values.findIdx? isFault = values.findIdx? isOther := by
  unfold outcome
  cases values.findIdx? isFault <;> cases values.findIdx? isOther <;> simp

/-- The first document that is nameless is the first that is so without its tags, exactly if that one has none. -/
theorem findIdx?_isNameless_iff {values : List Value} :
    values.findIdx? Value.isNameless = values.findIdx? (·.untagged.isNameless) ↔
      ∀ value, values.find? (·.untagged.isNameless) = some value → value.untagged = value := by
  induction values with
  | nil => simp
  | cons value rest ih =>
    rw [List.findIdx?_cons, List.findIdx?_cons, List.find?_cons]
    cases hunder : value.untagged.isNameless with
    | false =>
      have hnot : value.isNameless = false := by
        rw [← Bool.not_eq_true, Value.isNameless_iff, hunder]
        exact fun h => nomatch h.1
      simpa only [hnot, Bool.false_eq_true, if_false, (Option.map_injective fun _ _ => Nat.add_right_cancel).eq_iff] using ih
    | true =>
      by_cases hbare : value.untagged = value
      · have hnameless := Value.isNameless_iff.mpr ⟨hunder, hbare⟩
        simp [hnameless, hbare]
      · have hnot : value.isNameless = false := by
          rw [← Bool.not_eq_true, Value.isNameless_iff]
          exact fun h => hbare h.2
        simp [hnot, hbare]

/-- What documents come to, and so a text of them. The first nameless one is at fault, which is one that is nameless without its tags and
has none; else there are the entries of all that have any. That is what they would come to with the tags taken away, exactly if the first
document that is nameless without its tags, if there is one, has none. -/
theorem outcome_of_documents (values : List Value) :
    entriesOfValues 0 values = outcome Value.isNameless values ∧
      (∀ value : Value, value.isNameless = true ↔ value.untagged.isNameless = true ∧ value.untagged = value) ∧
      (entriesOfValues 0 values = outcome (·.untagged.isNameless) values ↔
        ∀ value, values.find? (·.untagged.isNameless) = some value → value.untagged = value) ∧
      ∀ text, (documents text).2 = none → (Yaml.values (documents text).1).1 = values → (Yaml.values (documents text).1).2 = none →
        parse text = outcome Value.isNameless values := by
  refine ⟨entriesOfValues_eq_outcome values, fun _ => Value.isNameless_iff, ?_, ?_⟩
  · rw [entriesOfValues_eq_outcome, outcome_eq_iff, findIdx?_isNameless_iff]
  · rintro text hparts rfl hvalues
    simp only [parse, hparts, hvalues, entriesOfValues_eq_outcome]
    cases outcome Value.isNameless (Yaml.values (documents text).1).1 <;> rfl

/-- An empty document, one with an entry, one without any, and a sequence. -/
def fourDocuments : String := "---\n---\na: 1\n---\n{}\n---\n[1, 2]\n"

/-- Of four documents the last is a list, and the error names its place. -/
theorem outcome_of_documents_four :
    (documents fourDocuments).2 = none ∧ (Yaml.values (documents fourDocuments).1).2 = none ∧
      parse fourDocuments = outcome Value.isNameless (Yaml.values (documents fourDocuments).1).1 ∧
      parse fourDocuments = .error (.notMapping 3) := by
  have hparts : (documents fourDocuments).2 = none := by decide +kernel
  have hvalues : (Yaml.values (documents fourDocuments).1).2 = none := by decide +kernel
  obtain ⟨-, -, -, hparse⟩ := outcome_of_documents (Yaml.values (documents fourDocuments).1).1
  exact ⟨hparts, hvalues, hparse fourDocuments hparts rfl hvalues, by decide +kernel⟩

/-- A sequence under a tag. -/
def sequenceUnderTag : Value := .tagged "t" (.sequence [.scalar (.integer 1), .scalar (.integer 2)])

/-- Without its tag the root is a sequence, which is no mapping; but it is not refused, and its items are entries. -/
theorem sequence_accepted_underTag :
    sequenceUnderTag.untagged.isNameless = true ∧
      outcome (·.untagged.isNameless) [sequenceUnderTag] = .error (.notMapping 0) ∧
      entriesOfValues 0 [sequenceUnderTag] = .ok [[("[0]", "1"), ("[1]", "2")]] ∧
      parse "!t [1, 2]" = .ok [[("[0]", "1"), ("[1]", "2")]] := by
  decide +kernel

end Ignition.Yaml
