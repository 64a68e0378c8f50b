import Ignition.Proofs.Config.Entries
import Ignition.Proofs.Config.Keys

/-!
# Keys and environment variables

A key is looked for among the environment variables under several spellings. Where all variables are written in capitals, only one of
them can be there (`eq_variableName`): the key with underscores for dots and dashes, in upper case. So how a key is spelled makes
no difference there (`value_of_variable`).
-/

namespace Ignition

/-- Whether a character can stand in the name of a variable that is written in capitals. -/
def isCapital (c : Char) : Bool :=
  c.isUpper || c.isDigit || c = '_'

/-- Whether a name is written in capitals. -/
def inCapitals (name : String) : Bool :=
  name.toList.all isCapital

/-! ## Upper case -/

namespace Text

/-- A capital comes before the small letters. -/
theorem toNat_of_isCapital {c : Char} (h : isCapital c = true) : c.toNat < 0x61 := by
  simp only [isCapital, Bool.or_eq_true, decide_eq_true_eq] at h
  rcases h with (hupper | hdigit) | rfl
  · have hlast : c.val ≤ 'Z'.val := (of_decide_eq_true hupper).2
    exact Nat.lt_of_le_of_lt (UInt32.le_iff_toNat_le.mp hlast) (by decide)
  · have hlast : c.val ≤ '9'.val := of_decide_eq_true ((Bool.and_eq_true _ _).mp hdigit).2
    exact Nat.lt_of_le_of_lt (UInt32.le_iff_toNat_le.mp hlast) (by decide)
  · decide

/-- A capital is its own capital. -/
theorem toUpper_of_isCapital {c : Char} (h : isCapital c = true) : c.toUpper = c := by
  have hnot : ¬('a'.val ≤ c.val ∧ c.val ≤ 'z'.val) := by
    rintro ⟨hlower, -⟩
    have hfirst : 0x61 ≤ c.toNat := UInt32.le_iff_toNat_le.mp hlower
    exact absurd (toNat_of_isCapital h) (Nat.not_lt.mpr hfirst)
  exact dif_neg hnot

/-- What is written in capitals is in upper case. -/
theorem upperCaseString_of_inCapitals {name : String} (h : inCapitals name = true) : upperCaseString name = name := by
  rw [inCapitals, List.all_eq_true] at h
  have hsame : ∀ c ∈ name.toList, (if c.toNat < 0x80 then [c.toUpper] else upperCase c) = [c] := by
    intro c hc
    have hlt := toNat_of_isCapital (h c hc)
    rw [if_pos (by omega), toUpper_of_isCapital (h c hc)]
  rw [upperCaseString, List.flatMap_congr hsame, List.flatMap_singleton', String.ofList_toList]

/-- A character that is its own upper case stays. -/
theorem mem_upperCaseString {c : Char} {text : String} (hc : c.toUpper = c) (hascii : c.toNat < 0x80) (h : c ∈ text.toList) :
    c ∈ (upperCaseString text).toList := by
  rw [upperCaseString, String.toList_ofList, List.mem_flatMap]
  refine ⟨c, h, ?_⟩
  rw [if_pos hascii, hc]
  exact List.mem_singleton_self c

end Text

namespace Layer

variable {key name : String} {old new : Char}

/-- A name without the character is respelled as itself. -/
theorem respell_eq_self (h : old ∉ name.toList) : respell old new name = name := by
  have hsame : ∀ c ∈ name.toList, (if c = old then new else c) = id c := by
    intro c hc
    have hne : c ≠ old := fun heq => h (heq ▸ hc)
    exact if_neg hne
  rw [respell, List.map_congr_left hsame, List.map_id, String.ofList_toList]

/-- A character that is not the new one is respelled once and for all. -/
theorem respell_respell_self (hne : new ≠ old) : respell old new (respell old new name) = respell old new name := by
  refine respell_eq_self ?_
  rw [respell, String.toList_ofList, List.mem_map]
  rintro ⟨c, -, hc⟩
  by_cases heq : c = old
  · exact hne ((if_pos heq).symm.trans hc)
  · exact heq ((if_neg heq).symm.trans hc)

/-- It makes no difference which of two characters is respelled first. -/
theorem respell_respell_comm {other : Char} (hnew : new ≠ old) (hother : new ≠ other) :
    respell old new (respell other new name) = respell other new (respell old new name) := by
  simp only [respell, String.toList_ofList, List.map_map]
  congr 2
  funext c
  by_cases hold : c = old <;> by_cases hc : c = other <;> simp_all [Function.comp]

/-- A key with underscores for dots and dashes. -/
def plainName (key : String) : String :=
  respell '-' '_' (respell '.' '_' key)

/-- The name of the environment variable that a key stands for: with underscores for dots and dashes, in upper case. -/
def variableName (key : String) : String :=
  Text.upperCaseString (plainName key)

/-- Spelling a key with some of the underscores first makes no difference. -/
theorem plainName_of_mem (h : name ∈ plainSpellings key) : plainName name = plainName key := by
  have hdot : '_' ≠ '.' := by decide
  have hdash : '_' ≠ '-' := by decide
  simp only [plainSpellings, List.mem_cons, List.not_mem_nil, or_false] at h
  rcases h with rfl | rfl | rfl | rfl
  · rfl
  · rw [plainName, respell_respell_self hdot, plainName]
  · rw [plainName, respell_respell_comm hdot hdash, respell_respell_self hdash, plainName]
  · rw [plainName, respell_respell_comm hdot hdash, respell_respell_self hdot, respell_respell_self hdash, plainName]

/-- A name without dots and hyphens is plain. -/
theorem plainName_eq_self (hdot : '.' ∉ name.toList) (hdash : '-' ∉ name.toList) : plainName name = name := by
  rw [plainName, respell_eq_self hdot, respell_eq_self hdash]

/-- A name in capitals has no other characters. -/
theorem notMem_of_inCapitals {c : Char} (h : inCapitals name = true) (hc : isCapital c = false) : c ∉ name.toList := by
  intro hmem
  rw [inCapitals, List.all_eq_true] at h
  exact Bool.false_ne_true (hc.symm.trans (h c hmem))

/-- No spelling of a key is written in capitals but the name of its variable. -/
theorem eq_variableName (h : name ∈ spellings key) (hcapitals : inCapitals name = true) : name = variableName key := by
  have hdot : '.' ∉ name.toList := notMem_of_inCapitals hcapitals rfl
  have hdash : '-' ∉ name.toList := notMem_of_inCapitals hcapitals rfl
  rcases mem_spellings.mp h with hplain | ⟨plain, hplain, rfl⟩
  · -- Nothing is left to be respelled, and it is in upper case already.
    rw [variableName, ← plainName_of_mem hplain, plainName_eq_self hdot hdash, Text.upperCaseString_of_inCapitals hcapitals]
  · -- A dot or a dash would have stayed in upper case.
    have hdot' : '.' ∉ plain.toList := mt (Text.mem_upperCaseString rfl (by decide)) hdot
    have hdash' : '-' ∉ plain.toList := mt (Text.mem_upperCaseString rfl (by decide)) hdash
    rw [variableName, ← plainName_of_mem hplain, plainName_eq_self hdot' hdash']

/-- The name of the variable for a key is one of its spellings. -/
theorem variableName_mem_spellings (key : String) : variableName key ∈ spellings key :=
  mem_spellings.mpr (.inr ⟨plainName key, by simp [plainSpellings, plainName], rfl⟩)

/-! ## Values -/

/-- Of several names only one of which has a value, the value of that one is found. -/
theorem findSome?_eq_of_single {get? : String → Option String} {names : List String} (hmem : name ∈ names)
    (hothers : ∀ other ∈ names, other ≠ name → get? other = none) : names.findSome? get? = get? name := by
  cases hvalue : get? name with
  | none =>
    rw [List.findSome?_eq_none_iff]
    intro other hother
    by_cases heq : other = name
    · rw [heq, hvalue]
    · exact hothers other hother heq
  | some value =>
    obtain ⟨before, behind, rfl, hbefore⟩ := List.eq_append_cons_of_mem hmem
    refine List.findSome?_eq_some_iff.mpr ⟨before, name, behind, rfl, hvalue, ?_⟩
    intro other hother
    exact hothers other (List.mem_append_left _ hother) fun heq => hbefore (heq ▸ hother)

/-- Where all variables are written in capitals, a key has the value of its variable. -/
theorem get?_ofVariables {snapshot : Entries} (h : ∀ name ∈ snapshot.keys, inCapitals name = true) (key : String) :
    (ofVariables snapshot).get? key = snapshot.last? (variableName key) := by
  have hothers : ∀ name ∈ spellings key, name ≠ variableName key → snapshot.collapse.get? name = none := by
    intro name hname hne
    rw [Entries.get?_eq_none_iff, Entries.keys_collapse, List.mem_eraseDups]
    intro hmem
    exact hne (eq_variableName hname (h name hmem))
  have hget : (ofVariables snapshot).get? key = (spellings key).findSome? snapshot.collapse.get? := rfl
  rw [hget, findSome?_eq_of_single (variableName_mem_spellings key) hothers, Entries.get?_collapse, Entries.last?]

/-- Where all environment variables have names of capital letters, digits and underscores, the layer of variables has for a key the value
of one of them, and none if there is no such variable: the one named by the key in upper case, with underscores for dots and dashes. So it
has the same for all keys that name the same variable. -/
theorem value_of_variable (snapshot : Entries) (h : ∀ name ∈ snapshot.keys, inCapitals name = true) :
    (∀ key, (ofVariables snapshot).get? key = snapshot.last? (variableName key)) ∧
      (∀ key, (ofVariables snapshot).get? key = none ↔ variableName key ∉ snapshot.keys) ∧
      ∀ key other, variableName key = variableName other → (ofVariables snapshot).get? key = (ofVariables snapshot).get? other := by
  refine ⟨get?_ofVariables h, ?_, ?_⟩
  · intro key
    rw [get?_ofVariables h, Entries.last?_eq_none_iff]
  · intro key other heq
    rw [get?_ofVariables h, get?_ofVariables h, heq]

/-- Keys with dots, dashes and small letters, one of them with a letter whose upper case is two letters. -/
theorem value_of_variable_mixed :
    let snapshot : Entries := [("LOG_FILE_NAME", "first"), ("STRASSE_1", "here"), ("LOG_FILE_NAME", "last")]
    (∀ name ∈ snapshot.keys, inCapitals name = true) ∧ (ofVariables snapshot).get? "log.file-name" = some "last" ∧
      (ofVariables snapshot).get? "straße.1" = some "here" ∧ (ofVariables snapshot).get? "log.file" = none ∧
      (ofVariables snapshot).get? "LOG-file.NAME" = (ofVariables snapshot).get? "log_File.name" := by
  intro snapshot
  have hcapitals : ∀ name ∈ snapshot.keys, inCapitals name = true := by decide +kernel
  obtain ⟨hvalue, hnone, hsame⟩ := value_of_variable snapshot hcapitals
  refine ⟨hcapitals, ?_, ?_, ?_, ?_⟩
  · rw [hvalue]
    decide +kernel
  · rw [hvalue]
    decide +kernel
  · rw [hnone]
    decide +kernel
  · exact hsame _ _ (by decide +kernel)

end Layer

end Ignition
