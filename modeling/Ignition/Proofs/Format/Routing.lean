import Ignition.Format.Formats
import Ignition.Proofs.Config.Entries
import Ignition.Proofs.Config.Options

/-!
# Which documents a reading takes

A document of a file is for no profile, or for the profiles that its expressions stand for, and never for both: a reading for no profile
takes the documents without an expression, and a reading for a profile takes those with an expression that stands for it. The layer has
the keys of the documents taken in order of first appearance, and of each key the last value in the last of them that has one
(`layer_of_documents`).
-/

namespace Ignition

/-! ## Entries one list behind the other -/

namespace Entries

variable {key : String}

/-- The last value for a key in lists of entries is the one in the last list that has any. -/
theorem last?_flatten (lists : List Entries) : last? lists.flatten key = lists.reverse.findSome? (last? · key) := by
  induction lists with
  | nil => rfl
  | cons entries lists ih =>
    rw [List.flatten_cons, last?_append, ih, List.reverse_cons, List.findSome?_append, List.findSome?_singleton]

/-- The keys of lists one behind the other. -/
theorem keys_flatten (lists : List Entries) : keys lists.flatten = lists.flatMap keys := by
  rw [keys, List.map_flatten, List.flatMap_def]
  rfl

end Entries

namespace Yaml

/-! ## Expressions -/

/-- A document has an expression: it is an entry of a list under the key for profiles, or under a key of the sequence there. -/
def HasExpression (document : Entries) (expression : String) : Prop :=
  ∃ key list, (key, list) ∈ document ∧
    (key = Key.documentProfiles ∨ ∃ rest, key = Key.documentProfiles ++ "[" ++ rest) ∧ expression ∈ Text.listEntries list

/-- An expression stands for a profile: it is the name of the profile, or an exclamation mark and another name. -/
def StandsFor (expression profile : String) : Prop :=
  expression = profile ∨ ∃ name, expression = "!" ++ name ∧ name ≠ profile

variable {document : Entries} {expression profile : String}

/-- The expressions of a document are the values of its keys for profiles. -/
theorem mem_profileExpressions : expression ∈ profileExpressions document ↔ HasExpression document expression := by
  simp only [profileExpressions, HasExpression, List.mem_flatMap, List.mem_filter, Bool.or_eq_true, decide_eq_true_eq,
    Text.startsWith_iff]
  constructor
  · rintro ⟨⟨key, list⟩, ⟨hmem, hkey⟩, hlist⟩
    exact ⟨key, list, hmem, hkey, hlist⟩
  · rintro ⟨key, list, hmem, hkey, hlist⟩
    exact ⟨(key, list), ⟨hmem, hkey⟩, hlist⟩

/-- A text with an exclamation mark in front of it is another text. -/
theorem ne_negated (name : String) : name ≠ "!" ++ name := by
  intro h
  have hlength := congrArg (fun text => text.toList.length) h
  simp at hlength

/-- An expression holds for a profile exactly if it stands for it. -/
theorem expressionHolds_iff : expressionHolds profile expression = true ↔ StandsFor expression profile := by
  unfold expressionHolds StandsFor
  split
  · rename_i name hdrop
    obtain rfl := Text.dropStart?_eq_some.mp hdrop
    rw [decide_eq_true_eq]
    constructor
    · intro hne
      exact .inr ⟨name, rfl, hne⟩
    · rintro (heq | ⟨other, heq, hne⟩)
      · -- A profile whose own name begins with the mark is not the name behind it.
        rw [← heq]
        exact ne_negated name
      · obtain rfl : name = other := by simpa using heq
        exact hne
  · rename_i hdrop
    rw [decide_eq_true_eq]
    constructor
    · exact .inl
    · rintro (heq | ⟨name, rfl, -⟩)
      · exact heq
      · cases hdrop.symm.trans (Text.dropStart?_eq_some.mpr rfl)

/-! ## Documents -/

/-- Without a profile those documents apply that name none. -/
theorem applies_none_iff : applies none document = true ↔ ∀ expression, ¬HasExpression document expression := by
  simp only [applies, List.isEmpty_iff, List.eq_nil_iff_forall_not_mem, mem_profileExpressions]

/-- For a profile those documents apply that have an expression which stands for it. -/
theorem applies_some_iff :
    applies (some profile) document = true ↔ ∃ expression, HasExpression document expression ∧ StandsFor expression profile := by
  simp only [applies, List.any_eq_true, mem_profileExpressions, expressionHolds_iff]

/-- No document is both for no profile and for some profile. -/
theorem not_applies_both : ¬(applies none document = true ∧ applies (some profile) document = true) := by
  rintro ⟨hnone, hsome⟩
  obtain ⟨expression, hexpression, -⟩ := applies_some_iff.mp hsome
  exact applies_none_iff.mp hnone expression hexpression

/-- No entries are selected exactly if all the documents that apply are empty. -/
theorem selected_eq_nil_iff {documents : List Entries} {wanted : Option String} :
    selected wanted documents = [] ↔ ∀ document ∈ documents.filter (applies wanted), document = [] := by
  rw [selected, List.flatten_eq_nil_iff]

end Yaml

/-- What makes a layer: there is none without entries, and else one with each key once and the last value of it. -/
theorem Format.layerOf?_eq_some {name : String} {resource : Resource} {entries : Entries} {layer : Layer}
    (h : layerOf? name resource entries = some layer) :
    layer.entries = entries.collapse ∧ ∀ key, layer.get? key = entries.last? key := by
  unfold layerOf? at h
  split at h
  · cases h
  · cases h
    exact ⟨rfl, fun key => Entries.get?_collapse entries key⟩

/-- There is no layer without entries. -/
theorem Format.layerOf?_eq_none_iff {name : String} {resource : Resource} {entries : Entries} :
    layerOf? name resource entries = none ↔ entries = [] := by
  unfold layerOf?
  split <;> simp_all

namespace Yaml

/-- Documents are read for no profile or for a profile, and never for both: for no profile those without an expression, and for a profile
those with an expression that stands for it. The layer of those that are taken is missing exactly if none of them has an entry; it has
their keys in order of first appearance, and of each key the last value in the last of them that has one. -/
theorem layer_of_documents (documents : List Entries) (name : String) (resource : Resource) (wanted : Option String) :
    (∀ document profile, ¬(applies none document = true ∧ applies (some profile) document = true)) ∧
      (∀ document, applies none document = true ↔ ∀ expression, ¬HasExpression document expression) ∧
      (∀ document profile, applies (some profile) document = true ↔
        ∃ expression, HasExpression document expression ∧ StandsFor expression profile) ∧
      (parse resource.contents = .ok documents → Format.yaml.read name resource wanted =
        .ok (Format.layerOf? name resource (selected wanted documents))) ∧
      let taken := documents.filter (applies wanted)
      (Format.layerOf? name resource (selected wanted documents) = none ↔ ∀ document ∈ taken, document = []) ∧
        ∀ layer, Format.layerOf? name resource (selected wanted documents) = some layer →
          layer.entries.keys = (taken.flatMap Entries.keys).eraseDups ∧
            ∀ key, layer.get? key = taken.reverse.findSome? (·.last? key) := by
  refine ⟨fun _ _ => not_applies_both, fun _ => applies_none_iff, fun _ _ => applies_some_iff, ?_, ?_, ?_⟩
  · intro hparse
    simp only [Format.yaml, hparse]
  · rw [Format.layerOf?_eq_none_iff, selected_eq_nil_iff]
  · intro layer hlayer
    obtain ⟨hentries, hget⟩ := Format.layerOf?_eq_some hlayer
    refine ⟨?_, fun key => ?_⟩
    · rw [hentries, Entries.keys_collapse, selected, Entries.keys_flatten]
    · rw [hget, selected, Entries.last?_flatten]

/-- A file with a document for no profile and two for some. -/
def threeDocuments : Resource where
  description := "three documents"
  location := "file:./application.yml"
  contents := "port: 1\n---\nliftoff.profiles: dev, qa\nport: 2\n---\nliftoff.profiles: ['!dev', uat]\nport: 3\nhost: a\n"

/-- The entries of its documents. -/
def threeDocumentsEntries : List Entries :=
  [[("port", "1")], [("liftoff.profiles", "dev, qa"), ("port", "2")],
    [("liftoff.profiles[0]", "!dev"), ("liftoff.profiles[1]", "uat"), ("port", "3"), ("host", "a")]]

/-- Of three documents two apply, one by its name and one by what it excludes. -/
theorem layer_of_documents_three :
    parse threeDocuments.contents = .ok threeDocumentsEntries ∧
      ∃ layer, Format.layerOf? "qa" threeDocuments (selected (some "qa") threeDocumentsEntries) = some layer ∧
        Format.yaml.read "qa" threeDocuments (some "qa") = .ok (some layer) ∧
        layer.entries.keys = ["liftoff.profiles", "port", "liftoff.profiles[0]", "liftoff.profiles[1]", "host"] ∧
        layer.get? "port" = some "3" := by
  have hparse : parse threeDocuments.contents = .ok threeDocumentsEntries := by decide +kernel
  obtain ⟨-, -, -, hread, -, hlayer⟩ := layer_of_documents threeDocumentsEntries "qa" threeDocuments (some "qa")
  cases hsome : Format.layerOf? "qa" threeDocuments (selected (some "qa") threeDocumentsEntries) with
  | none => exact absurd (Format.layerOf?_eq_none_iff.mp hsome) (by decide +kernel)
  | some layer =>
    obtain ⟨hkeys, hget⟩ := hlayer layer hsome
    refine ⟨hparse, layer, rfl, hsome ▸ hread hparse, ?_, ?_⟩
    · rw [hkeys]
      decide +kernel
    · rw [hget]
      decide +kernel

end Yaml

end Ignition
