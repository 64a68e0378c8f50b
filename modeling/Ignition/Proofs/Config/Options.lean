import Ignition.Config.Arguments
import Ignition.Proofs.Config.Entries
import Mathlib.Data.List.Basic
import Mathlib.Data.List.Induction
import Mathlib.Data.List.Nodup

/-!
# What a command line says

A command line that has a reading says of each name whether it is given as an option, and with which values (`parse_eq_ok`). As a layer
it has the values of each option, joined with commas, and the positional arguments under a key of their own, which take precedence over
an option of that name (`get?_toLayer`).
-/

namespace Ignition

/-! ## Pieces of text -/

namespace Text

variable {c : Char} {text before behind : List Char}

/-- A text is cut at the first place of a character. -/
theorem cut_append (h : c ∉ before) : cut c (before ++ c :: behind) = some (before, behind) := by
  induction before with
  | nil => simp [cut]
  | cons d before ih =>
    rw [List.mem_cons, not_or] at h
    simp [cut, Ne.symm h.1, ih h.2]

/-- A text is cut at the last place of a character. -/
theorem cutLast_append (h : c ∉ behind) : cutLast c (before ++ c :: behind) = some (before, behind) := by
  have hreverse : (before ++ c :: behind).reverse = behind.reverse ++ c :: before.reverse := by simp
  rw [cutLast, hreverse, cut_append (by simpa using h)]
  simp

/-- A text without the character cannot be cut at it, and only such a text. -/
theorem cut_eq_none_iff : cut c text = none ↔ c ∉ text := by
  induction text with
  | nil => simp [cut]
  | cons d text ih =>
    by_cases h : d = c
    · simp [cut, h]
    · simp [cut, h, ih, Ne.symm h]

/-- A text without a character is not cut at its last occurrence either. -/
theorem cutLast_eq_none (h : c ∉ text) : cutLast c text = none := by
  rw [cutLast, cut_eq_none_iff.mpr (by simpa using h)]
  rfl

/-- What a cut leaves is the text again, with the character between the two parts, and not in the first. -/
theorem eq_of_cut (h : cut c text = some (before, behind)) : text = before ++ c :: behind ∧ c ∉ before := by
  by_cases hmem : c ∈ text
  · obtain ⟨before', behind', rfl, hnot⟩ := List.eq_append_cons_of_mem hmem
    rw [cut_append hnot] at h
    obtain ⟨rfl, rfl⟩ := Prod.mk.inj (Option.some.inj h)
    exact ⟨rfl, hnot⟩
  · rw [cut_eq_none_iff.mpr hmem] at h
    nomatch h

/-- What is left of a text without a known beginning is what stands behind it. -/
theorem dropStart?_eq_some {start text rest : String} : dropStart? start text = some rest ↔ text = start ++ rest := by
  simp only [dropStart?, Option.map_eq_some_iff, List.isPrefixOf?_eq_some_iff_append_eq]
  constructor
  · rintro ⟨chars, htext, rfl⟩
    rw [← String.toList_inj, ← htext, String.toList_append, String.toList_ofList]
  · rintro rfl
    exact ⟨rest.toList, String.toList_append.symm, String.ofList_toList⟩

/-- A text starts with another one exactly if something follows that one in it. -/
theorem startsWith_iff {start text : String} : startsWith start text = true ↔ ∃ rest, text = start ++ rest := by
  rw [startsWith, List.isPrefixOf_iff_prefix]
  constructor
  · rintro ⟨rest, hrest⟩
    exact ⟨String.ofList rest, by rw [← String.toList_inj, ← hrest, String.toList_append, String.toList_ofList]⟩
  · rintro ⟨rest, rfl⟩
    exact ⟨rest.toList, String.toList_append.symm⟩

/-- A text that does not start with another one is not that one with something behind it. -/
theorem ne_append_of_not_startsWith {start text : String} (h : startsWith start text = false) (rest : String) :
    text ≠ start ++ rest := by
  intro htext
  rw [startsWith_iff.mpr ⟨rest, htext⟩] at h
  nomatch h

/-- What is left of a text without a known ending is what stands ahead of it. -/
theorem dropEnd?_eq_some {ending text rest : String} : dropEnd? ending text = some rest ↔ text = rest ++ ending := by
  simp only [dropEnd?, Option.map_eq_some_iff, List.isPrefixOf?_eq_some_iff_append_eq]
  constructor
  · rintro ⟨front, hfront, rfl⟩
    rw [← String.toList_inj, String.toList_append, String.toList_ofList, ← List.reverse_inj, List.reverse_append,
      List.reverse_reverse, hfront]
  · rintro rfl
    exact ⟨rest.toList.reverse, by rw [String.toList_append, List.reverse_append], by
      rw [List.reverse_reverse, String.ofList_toList]⟩

/-- A text has nothing left without a beginning that it does not have. -/
theorem dropStart?_eq_none {start text : String} : dropStart? start text = none ↔ startsWith start text = false := by
  rw [Option.eq_none_iff_forall_ne_some, ← Bool.not_eq_true, startsWith_iff, not_exists]
  simp only [Ne, dropStart?_eq_some]

/-- A text is cut at its first equals sign. -/
theorem cutString_eq_some {text name value : String} :
    cutString '=' text = some (name, value) ↔ text = name ++ "=" ++ value ∧ '=' ∉ name.toList := by
  have hjoin : (name ++ "=" ++ value).toList = name.toList ++ '=' :: value.toList := by
    simp
  simp only [cutString, Option.map_eq_some_iff]
  constructor
  · rintro ⟨⟨before, behind⟩, hcut, hparts⟩
    obtain ⟨rfl, rfl⟩ := Prod.mk.inj hparts
    obtain ⟨htext, hnot⟩ := eq_of_cut hcut
    rw [← String.toList_inj, hjoin, htext, String.toList_ofList, String.toList_ofList]
    exact ⟨rfl, hnot⟩
  · rintro ⟨rfl, hnot⟩
    exact ⟨(name.toList, value.toList), by rw [hjoin, cut_append hnot], by simp⟩

/-- A text without an equals sign cannot be cut at one, and only such a text. -/
theorem cutString_eq_none {text : String} : cutString '=' text = none ↔ '=' ∉ text.toList := by
  simp [cutString, cut_eq_none_iff]

/-- What is ahead of the first equals sign and what is behind it are determined. -/
theorem parts_eq_of_join {name name' value value' : String} (hname : '=' ∉ name.toList) (hname' : '=' ∉ name'.toList)
    (h : name ++ "=" ++ value = name' ++ "=" ++ value') : name = name' ∧ value = value' := by
  have hcut : cutString '=' (name ++ "=" ++ value) = some (name, value) := cutString_eq_some.mpr ⟨rfl, hname⟩
  rw [h, cutString_eq_some.mpr ⟨rfl, hname'⟩] at hcut
  obtain ⟨rfl, rfl⟩ := Prod.mk.inj (Option.some.inj hcut)
  exact ⟨rfl, rfl⟩

/-- A name without an equals sign is not another name with a value. -/
theorem ne_join {name name' value : String} (hname : '=' ∉ name.toList) : name ≠ name' ++ "=" ++ value := by
  rintro rfl
  simp at hname

end Text

/-! ## Single arguments -/

namespace Arguments

variable {text name value : String} {argument : Argument}

/-- What a text can be: a positional argument, or an option with a value or without one, whose name may be missing. -/
theorem text_cases (text : String) :
    Text.startsWith "--" text = false ∨
      ∃ name, '=' ∉ name.toList ∧ (text = "--" ++ name ∨ ∃ value, text = "--" ++ (name ++ "=" ++ value)) := by
  by_cases hstarts : Text.startsWith "--" text = true
  · obtain ⟨body, rfl⟩ := Text.startsWith_iff.mp hstarts
    right
    cases hcut : Text.cutString '=' body with
    | none => exact ⟨body, Text.cutString_eq_none.mp hcut, .inl rfl⟩
    | some parts =>
      obtain ⟨rfl, hequals⟩ := Text.cutString_eq_some.mp hcut
      exact ⟨parts.1, hequals, .inr ⟨parts.2, rfl⟩⟩
  · exact .inl (Bool.eq_false_iff.mpr hstarts)

/-- A text that does not begin with two hyphens is a positional argument. -/
theorem ofText?_positional (h : Text.startsWith "--" text = false) : Argument.ofText? text = some (.positional text) := by
  rw [Argument.ofText?, Text.dropStart?_eq_none.mpr h]

/-- Two hyphens and a name are an option without a value, and without a name they are no argument. -/
theorem ofText?_bare (hequals : '=' ∉ name.toList) :
    Argument.ofText? ("--" ++ name) = if name = "" then none else some (.option name none) := by
  rw [Argument.ofText?, Text.dropStart?_eq_some.mpr rfl]
  simp [Text.cutString_eq_none.mpr hequals]

/-- Two hyphens, a name, an equals sign and a value are an option with this value, and without a name they are no argument. -/
theorem ofText?_valued (hequals : '=' ∉ name.toList) :
    Argument.ofText? ("--" ++ (name ++ "=" ++ value)) = if name = "" then none else some (.option name (some value)) := by
  rw [Argument.ofText?, Text.dropStart?_eq_some.mpr rfl]
  simp [Text.cutString_eq_some.mpr ⟨rfl, hequals⟩]

/-- What a text is that is an argument: a positional argument, or an option with a value or without one. -/
theorem Argument.ofText?_cases (h : Argument.ofText? text = some argument) :
    (argument = .positional text ∧ Text.startsWith "--" text = false) ∨
      ∃ name, name ≠ "" ∧ '=' ∉ name.toList ∧ ((argument = .option name none ∧ text = "--" ++ name) ∨
        ∃ value, argument = .option name (some value) ∧ text = "--" ++ (name ++ "=" ++ value)) := by
  rcases text_cases text with hpositional | ⟨name, hequals, rfl | ⟨value, rfl⟩⟩
  · rw [ofText?_positional hpositional] at h
    exact .inl ⟨(Option.some.inj h).symm, hpositional⟩
  · rw [ofText?_bare hequals] at h
    obtain ⟨hname, hargument⟩ := Option.ite_none_left_eq_some.mp h
    exact .inr ⟨name, hname, hequals, .inl ⟨(Option.some.inj hargument).symm, rfl⟩⟩
  · rw [ofText?_valued hequals] at h
    obtain ⟨hname, hargument⟩ := Option.ite_none_left_eq_some.mp h
    exact .inr ⟨name, hname, hequals, .inr ⟨value, (Option.some.inj hargument).symm, rfl⟩⟩

/-- What an argument adds to the values of a name; `none` if it is not about the name. -/
def Argument.adds? (name : String) : Argument → Option (List String)
  | .option given value => if given = name then some value.toList else none
  | .positional _ => none

/-- Whether texts give an option of a name, with a value or without one. -/
def Gives (texts : List String) (name : String) : Prop :=
  "--" ++ name ∈ texts ∨ ∃ value, "--" ++ (name ++ "=" ++ value) ∈ texts

/-- The values that texts give an option, in order. -/
def givenValues (texts : List String) (name : String) : List String :=
  texts.filterMap (Text.dropStart? ("--" ++ (name ++ "=")))

/-- The texts that are positional, in order. -/
def givenPositional (texts : List String) : List String :=
  texts.filter (!Text.startsWith "--" ·)

/-- A text gives an option exactly if it is an argument that adds to this option. -/
theorem gives_singleton (h : Argument.ofText? text = some argument) (hname : '=' ∉ name.toList) :
    Gives [text] name ↔ (argument.adds? name).isSome := by
  simp only [Gives, List.mem_singleton]
  rcases Argument.ofText?_cases h with ⟨rfl, hstarts⟩ | ⟨given, -, hgiven, ⟨rfl, rfl⟩ | ⟨value, rfl, rfl⟩⟩
  · have hno (rest : String) : "--" ++ rest ≠ text := (Text.ne_append_of_not_startsWith hstarts rest).symm
    simp [hno, Argument.adds?]
  · have hno (value : String) : name ++ "=" ++ value ≠ given := (Text.ne_join hgiven).symm
    by_cases heq : given = name
    · simp [heq, Argument.adds?]
    · simp [hno, heq, Ne.symm heq, Argument.adds?]
  · have hno : name ≠ given ++ "=" ++ value := Text.ne_join hname
    by_cases heq : given = name
    · simp [heq, Argument.adds?]
    · have hother (value' : String) : name ++ "=" ++ value' ≠ given ++ "=" ++ value :=
        fun h => heq (Text.parts_eq_of_join hgiven hname h.symm).1
      simp [hno, hother, heq, Argument.adds?]

/-- The value that a text has for an option is what stands behind its name and the equals sign. -/
theorem dropStart?_option (h : Argument.ofText? text = some argument) (hname : '=' ∉ name.toList) :
    Text.dropStart? ("--" ++ (name ++ "=")) text = (argument.adds? name).bind List.head? := by
  refine Option.ext fun value => ?_
  rw [Text.dropStart?_eq_some, String.append_assoc]
  rcases Argument.ofText?_cases h with ⟨rfl, hstarts⟩ | ⟨given, -, hgiven, ⟨rfl, rfl⟩ | ⟨value', rfl, rfl⟩⟩
  · have hno := Text.ne_append_of_not_startsWith hstarts
    simp [hno, Argument.adds?]
  · have hno : given ≠ name ++ "=" ++ value := Text.ne_join hgiven
    by_cases heq : given = name
    · subst heq
      simp [hno, Argument.adds?]
    · simp [hno, heq, Argument.adds?]
  · by_cases heq : given = name
    · simp [heq, Argument.adds?]
    · have hno : given ++ "=" ++ value' ≠ name ++ "=" ++ value := fun h => heq (Text.parts_eq_of_join hgiven hname h).1
      simp [hno, heq, Argument.adds?]

/-- The values that a text gives for an option are those that the argument adds. -/
theorem givenValues_singleton (h : Argument.ofText? text = some argument) (hname : '=' ∉ name.toList) :
    givenValues [text] name = (argument.adds? name).getD [] := by
  rw [givenValues, List.filterMap_cons, dropStart?_option h hname]
  rcases argument with ⟨given, value⟩ | text
  · by_cases heq : given = name <;> rcases value with _ | value <;> simp [Argument.adds?, heq]
  · rfl

/-- Two lists of texts give an option together exactly if one of them does. -/
theorem gives_append {texts more : List String} : Gives (texts ++ more) name ↔ Gives texts name ∨ Gives more name := by
  simp only [Gives, List.mem_append, exists_or]
  tauto

/-- Texts that do not give an option give no values for it. -/
theorem givenValues_eq_nil {texts : List String} (h : ¬Gives texts name) : givenValues texts name = [] := by
  rw [givenValues, List.filterMap_eq_nil_iff]
  intro text hmem
  refine Option.eq_none_iff_forall_ne_some.mpr fun value hvalue => h (.inr ⟨value, ?_⟩)
  rwa [← String.append_assoc, ← Text.dropStart?_eq_some.mp hvalue]

/-! ## Command lines -/

/-- A command line that has a reading has one of all arguments but the last, and one of the last. -/
theorem parse_concat {texts : List String} {arguments : Arguments} (h : parse (texts ++ [text]) = .ok arguments) :
    ∃ earlier argument, parse texts = .ok earlier ∧ Argument.ofText? text = some argument ∧ arguments = earlier.add argument := by
  rw [parse, List.foldlM_append] at h
  change (parse texts >>= fun earlier => _) = _ at h
  rcases hparse : parse texts with error | earlier
  · rw [hparse] at h
    nomatch h
  · rw [hparse] at h
    rcases hargument : Argument.ofText? text with _ | argument
    · simp [bind, Except.bind, hargument] at h
    · simp [bind, Except.bind, hargument, pure, Except.pure] at h
      exact ⟨earlier, argument, rfl, rfl, h.symm⟩

/-- Adding a value for an option puts it behind those that the option has, and leaves the other options as they are. -/
theorem find?_addOption (options : List (String × List String)) (given name : String) (value : Option String) :
    ((addOption given value options).find? (·.1 = name)).map (·.2) =
      if given = name then some (((options.find? (·.1 = name)).map (·.2)).getD [] ++ value.toList)
      else (options.find? (·.1 = name)).map (·.2) := by
  induction options with
  | nil => by_cases heq : given = name <;> simp [addOption, heq]
  | cons option rest ih =>
    obtain ⟨known, values⟩ := option
    by_cases hknown : known = given
    · subst hknown
      by_cases heq : known = name <;> simp [addOption, heq]
    · by_cases heq : known = name
      · subst heq
        simp [addOption, hknown, Ne.symm hknown]
      · simp only [addOption, if_neg hknown, List.find?_cons, heq, decide_false]
        exact ih

/-- Adding a value for an option adds its name, behind the others, unless it is there. -/
theorem names_addOption (options : List (String × List String)) (name : String) (value : Option String) :
    (addOption name value options).map (·.1) = withName (options.map (·.1)) name := by
  induction options with
  | nil => rfl
  | cons option rest ih =>
    obtain ⟨known, values⟩ := option
    by_cases heq : known = name
    · simp [addOption, withName, heq]
    · by_cases hmem : name ∈ rest.map (·.1) <;> simp_all [addOption, withName, eq_comm]

/-- An argument puts its values behind those that its option has, and leaves those of the other options. -/
theorem optionValues?_add (arguments : Arguments) :
    (arguments.add argument).optionValues? name =
      match argument.adds? name with
      | some values => some ((arguments.optionValues? name).getD [] ++ values)
      | none => arguments.optionValues? name := by
  rcases argument with ⟨given, value⟩ | text
  · rw [add, optionValues?, find?_addOption]
    by_cases heq : given = name <;> simp [Argument.adds?, heq, optionValues?]
  · rfl

/-- An argument adds no name twice. -/
theorem nodup_optionNames_add {arguments : Arguments} (h : arguments.optionNames.Nodup) : (arguments.add argument).optionNames.Nodup := by
  rcases argument with ⟨given, value⟩ | text
  · rw [optionNames, add, names_addOption]
    exact nodup_withName h
  · exact h

/-- An argument adds itself behind the positional ones if it is one of them. -/
theorem positional_add {arguments : Arguments} (h : Argument.ofText? text = some argument) :
    (arguments.add argument).positional = arguments.positional ++ givenPositional [text] := by
  rcases Argument.ofText?_cases h with ⟨rfl, hstarts⟩ | ⟨given, -, -, ⟨rfl, rfl⟩ | ⟨value, rfl, rfl⟩⟩
  · simp [add, givenPositional, hstarts]
  · simp [add, givenPositional, Text.startsWith_iff.mpr ⟨given, rfl⟩]
  · simp [add, givenPositional, Text.startsWith_iff.mpr ⟨given ++ "=" ++ value, rfl⟩]

open Classical in
/-- What a command line that has a reading says of its options and positional arguments. -/
theorem parse_eq_ok {texts : List String} {arguments : Arguments} (h : parse texts = .ok arguments) :
    arguments.positional = givenPositional texts ∧ arguments.optionNames.Nodup ∧
      ∀ name, '=' ∉ name.toList →
        arguments.optionValues? name = if Gives texts name then some (givenValues texts name) else none := by
  induction texts using List.reverseRecOn generalizing arguments with
  | nil =>
    obtain rfl := Except.ok.inj h
    simp [givenPositional, optionNames, optionValues?, Gives]
  | append_singleton texts text ih =>
    obtain ⟨earlier, argument, hearlier, hargument, rfl⟩ := parse_concat h
    obtain ⟨hpositional, hnodup, hoptions⟩ := ih hearlier
    refine ⟨?_, nodup_optionNames_add hnodup, fun name hname => ?_⟩
    · rw [positional_add hargument, hpositional, givenPositional, givenPositional, ← List.filter_append, ← givenPositional]
    · have hvalues : givenValues (texts ++ [text]) name = givenValues texts name ++ (argument.adds? name).getD [] := by
        rw [← givenValues_singleton hargument hname, givenValues, List.filterMap_append, ← givenValues, ← givenValues]
      rw [optionValues?_add, hoptions name hname, hvalues]
      simp only [gives_append, gives_singleton hargument hname]
      rcases argument.adds? name with _ | values
      · simp
      · by_cases hgives : Gives texts name
        · simp [hgives]
        · simp [hgives, givenValues_eq_nil hgives]

end Arguments

/-! ## The layer of arguments -/

/-- As a layer, a command line has the values of each option, joined with commas; the positional arguments have precedence over an
option of their name. -/
theorem Arguments.get?_toLayer {arguments : Arguments} (h : arguments.optionNames.Nodup) (name : String) :
    arguments.toLayer.get? name =
      if name = Key.positionalArguments ∧ arguments.positional ≠ [] then some (Text.commaJoin arguments.positional)
      else (arguments.optionValues? name).map Text.commaJoin := by
  have hkeys : (Entries.keys (arguments.options.map fun option => (option.1, Text.commaJoin option.2))).Nodup := by
    simpa [Entries.keys, optionNames, Function.comp_def] using h
  have hoptions : Entries.get? (arguments.options.map fun option => (option.1, Text.commaJoin option.2)).reverse name =
      (arguments.optionValues? name).map Text.commaJoin := by
    rw [Entries.get?_reverse hkeys]
    simp [Entries.get?, optionValues?, List.find?_map, Function.comp_def]
  simp only [toLayer, Layer.ofEntries, Layer.get?]
  rw [Entries.get?_collapse, List.reverse_append, Entries.get?_append, hoptions]
  by_cases hpositional : arguments.positional = []
  · simp [hpositional, Entries.get?]
  · by_cases hname : name = Key.positionalArguments
    · simp [hpositional, hname, Entries.get?]
    · simp [hpositional, hname, Ne.symm hname, Entries.get?]

end Ignition
