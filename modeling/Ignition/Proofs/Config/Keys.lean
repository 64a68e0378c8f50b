import Ignition.Proofs.Config.Entries
import Ignition.Proofs.Config.Steady
import Mathlib.Data.Set.Finite.List
import Mathlib.Data.Fintype.EquivFin

/-!
# The keys that are answered

Entries answer the keys that they have, and environment variables answer a key under several spellings, none of which is shorter than
the key. So an environment without random values answers only finitely many keys (`finite_answered`).
-/

namespace Ignition

/-- The keys that something has a value for. -/
def answered (get? : String → Option String) : Set String :=
  {key | get? key ≠ none}

/-! ## Spellings -/

namespace Text

/-- There are finitely many characters. -/
instance finite_char : Finite Char :=
  Finite.of_injective (fun c : Char => c.val.toBitVec.toFin) fun _ _ h => Char.ext (UInt32.eq_of_toFin_eq h)

/-- Texts of limited length are finitely many. -/
theorem finite_length_le (n : Nat) : {text : String | text.toList.length ≤ n}.Finite :=
  (List.finite_length_le Char n).preimage fun _ _ _ _ h => String.toList_inj.mp h

theorem upperCase_ne_nil (c : Char) : upperCase c ≠ [] := by
  have htable : ∀ entry ∈ longUpperCases, entry.2 ≠ [] := by decide +kernel
  simp only [upperCase]
  split
  · rename_i code text hfind
    intro h
    exact htable _ (Array.mem_of_find?_eq_some hfind) (List.map_eq_nil_iff.mp h)
  · split <;> exact List.cons_ne_nil _ _

/-- Upper case makes no text shorter. -/
theorem length_le_upperCaseString (text : String) : text.toList.length ≤ (upperCaseString text).toList.length := by
  rw [upperCaseString, String.toList_ofList]
  generalize text.toList = cs
  induction cs with
  | nil => exact Nat.le_refl 0
  | cons c cs ih =>
    have hfirst : 1 ≤ (if c.toNat < 0x80 then [c.toUpper] else upperCase c).length := by
      split
      · exact Nat.le_refl 1
      · exact List.length_pos_of_ne_nil (upperCase_ne_nil c)
    rw [List.flatMap_cons, List.length_append, List.length_cons]
    omega

end Text

namespace Layer

theorem length_respell (old new : Char) (text : String) : (respell old new text).toList.length = text.toList.length := by
  simp [respell]

/-- Dropping immediate repetitions keeps the names that there are. -/
theorem mem_dropRepeats {names : List String} {name : String} : name ∈ dropRepeats names ↔ name ∈ names := by
  fun_induction dropRepeats names with
  | case1 b rest ih => rw [ih]; simp
  | case2 a b rest hne ih => simp only [List.mem_cons, ih]
  | case3 => rfl

/-- The spellings of a key in the case in which it is given. -/
def plainSpellings (key : String) : List String :=
  [key, respell '.' '_' key, respell '-' '_' key, respell '-' '_' (respell '.' '_' key)]

/-- The spellings of a key are these as they are and in upper case. -/
theorem mem_spellings {key name : String} :
    name ∈ spellings key ↔ name ∈ plainSpellings key ∨ ∃ plain ∈ plainSpellings key, Text.upperCaseString plain = name := by
  have hspellings : spellings key = dropRepeats (plainSpellings key ++ (plainSpellings key).map Text.upperCaseString) := rfl
  rw [hspellings, mem_dropRepeats, List.mem_append, List.mem_map]

/-- No spelling is shorter than the key. -/
theorem length_le_of_mem_spellings {key name : String} (h : name ∈ spellings key) : key.toList.length ≤ name.toList.length := by
  have hplain : ∀ plain ∈ plainSpellings key, plain.toList.length = key.toList.length := by
    simp [plainSpellings, length_respell]
  rcases mem_spellings.mp h with hmem | ⟨plain, hmem, rfl⟩
  · exact (hplain name hmem).ge
  · exact (hplain plain hmem).ge.trans (Text.length_le_upperCaseString plain)

/-! ## Layers and environments -/

/-- A layer without random values answers only finitely many keys. A key of a variable is no longer than its name, since the variable
answers under a spelling of the key. -/
theorem finite_answered {layer : Layer} (h : layer.isRandom = false) : (answered layer.get?).Finite := by
  obtain ⟨name, origin, profile, source⟩ := layer
  cases source with
  | random draws => cases h
  | entries entries => exact (List.finite_toSet entries.keys).subset fun _ hkey => Entries.mem_keys_of_get? hkey
  | system entries =>
    refine ((List.finite_toSet entries.keys).biUnion fun name _ => Text.finite_length_le name.toList.length).subset ?_
    intro key hkey
    obtain ⟨name, hname, hanswer⟩ : ∃ name ∈ spellings key, entries.get? name ≠ none := by
      simpa [answered, get?, List.findSome?_eq_none_iff] using hkey
    exact Set.mem_biUnion (Entries.mem_keys_of_get? hanswer) (length_le_of_mem_spellings hname)

end Layer

/-- An environment without random values answers only finitely many keys. -/
theorem Environment.finite_answered {env : Environment} (h : ∀ layer ∈ env.layers, layer.isRandom = false) :
    (answered env.get?).Finite := by
  refine ((List.finite_toSet env.layers).biUnion fun layer hl => Layer.finite_answered (h layer hl)).subset ?_
  intro key hkey
  obtain ⟨layer, hlayer, hanswer⟩ : ∃ layer ∈ env.layers, layer.get? key ≠ none := by
    simpa [answered, get?, List.findSome?_eq_none_iff] using hkey
  exact Set.mem_biUnion hlayer hanswer

end Ignition
