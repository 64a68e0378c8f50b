import Ignition.Proofs.Config.Options
import Mathlib.Data.List.TakeWhile

/-!
# Reading command lines and writing them

A command line is read unless it has an option without a name, and then the first such option is the one that is reported. What is read is
all that the command line says: its positional arguments in order, the names of its options in order of first occurrence, and the
values of each (`reading_of_texts`). Whatever can be read has a written form, every option with its values and then the positional
arguments, and reading that gives the same again (`parse_render`).
-/

namespace Ignition

namespace Arguments

variable {text name value : String} {texts : List String} {argument : Argument} {arguments : Arguments}

/-! ## Single arguments -/

/-- Whether a text has the form of an option without a name. -/
def isNameless (text : String) : Bool :=
  text = "--" || Text.startsWith "--=" text

/-- The name that a text gives an option: what stands behind the dashes, up to the first equals sign or the end. -/
def givenName? (text : String) : Option String :=
  (Text.dropStart? "--" text).map fun body => String.ofList (body.toList.takeWhile (· ≠ '='))

/-- The name of an argument that is an option. -/
def Argument.name? : Argument → Option String
  | .option name _ => some name
  | .positional _ => none

/-- A text that does not begin with two hyphens is no option without a name. -/
theorem isNameless_positional (h : Text.startsWith "--" text = false) : isNameless text = false := by
  have hbare : text ≠ "--" := Text.ne_append_of_not_startsWith h ""
  have hequals : ∀ rest, text ≠ "--=" ++ rest := by
    intro rest
    rw [show "--=" = "--" ++ "=" from rfl, String.append_assoc]
    exact Text.ne_append_of_not_startsWith h ("=" ++ rest)
  rw [← Bool.not_eq_true]
  simp [isNameless, Text.startsWith_iff, hbare, hequals]

/-- An option has no name if there is nothing behind the dashes, or an equals sign first. -/
theorem isNameless_append (body : String) : isNameless ("--" ++ body) = true ↔ body = "" ∨ ∃ rest, body = "=" ++ rest := by
  have hbare : "--" ++ body = "--" ↔ body = "" := by
    rw [← String.toList_inj, ← String.toList_inj]
    simp
  have hequals : ∀ rest, "--" ++ body = "--=" ++ rest ↔ body = "=" ++ rest := by
    intro rest
    rw [← String.toList_inj, ← String.toList_inj]
    simp
  simp [isNameless, Text.startsWith_iff, hbare, hequals]

/-- Two hyphens and a name are an option without a name only if the name is empty. -/
theorem isNameless_bare (hequals : '=' ∉ name.toList) : isNameless ("--" ++ name) = true ↔ name = "" := by
  rw [isNameless_append]
  constructor
  · rintro (hempty | ⟨rest, rfl⟩)
    · exact hempty
    · simp at hequals
  · exact .inl

/-- So are two hyphens, a name and a value. -/
theorem isNameless_valued (hequals : '=' ∉ name.toList) : isNameless ("--" ++ (name ++ "=" ++ value)) = true ↔ name = "" := by
  rw [isNameless_append]
  constructor
  · rintro (hempty | ⟨rest, hrest⟩)
    · have hlist := congrArg String.toList hempty
      simp at hlist
    · have hnone : '=' ∉ "".toList := by simp
      exact (Text.parts_eq_of_join hequals hnone hrest).1
  · rintro rfl
    exact .inr ⟨value, rfl⟩

/-- A text that does not begin with two hyphens gives no option. -/
theorem givenName?_positional (h : Text.startsWith "--" text = false) : givenName? text = none := by
  rw [givenName?, Text.dropStart?_eq_none.mpr h, Option.map_none]

/-- The name ends where an equals sign stands, or nothing. -/
theorem givenName?_append {rest : String} (hequals : '=' ∉ name.toList) (hrest : rest.toList.takeWhile (· ≠ '=') = []) :
    givenName? ("--" ++ (name ++ rest)) = some name := by
  have hall : ∀ c ∈ name.toList, decide (c ≠ '=') = true := by
    intro c hc
    exact decide_eq_true fun heq => hequals (heq ▸ hc)
  have hfirst : (name ++ rest).toList.takeWhile (· ≠ '=') = name.toList := by
    rw [String.toList_append, List.takeWhile_append_of_pos hall, hrest, List.append_nil]
  rw [givenName?, Text.dropStart?_eq_some.mpr rfl, Option.map_some, hfirst, String.ofList_toList]

/-- Two hyphens and a name give the option of that name. -/
theorem givenName?_bare (hequals : '=' ∉ name.toList) : givenName? ("--" ++ name) = some name := by
  have hname := @givenName?_append name "" hequals rfl
  rwa [String.append_empty] at hname

/-- So they do with a value. -/
theorem givenName?_valued (hequals : '=' ∉ name.toList) : givenName? ("--" ++ (name ++ "=" ++ value)) = some name := by
  have hrest : ("=" ++ value).toList.takeWhile (· ≠ '=') = [] := by simp
  rw [String.append_assoc, givenName?_append hequals hrest]

/-- A text is no argument exactly if it is an option without a name. -/
theorem ofText?_eq_none_iff : Argument.ofText? text = none ↔ isNameless text = true := by
  rcases text_cases text with hpositional | ⟨name, hequals, rfl | ⟨value, rfl⟩⟩
  · simp [ofText?_positional hpositional, isNameless_positional hpositional]
  · rw [ofText?_bare hequals, isNameless_bare hequals]
    simp
  · rw [ofText?_valued hequals, isNameless_valued hequals]
    simp

/-- The option that a text gives is that of the argument that it is. -/
theorem givenName?_of_ofText? (h : Argument.ofText? text = some argument) : givenName? text = argument.name? := by
  rcases Argument.ofText?_cases h with ⟨rfl, hpositional⟩ | ⟨name, -, hequals, ⟨rfl, rfl⟩ | ⟨value, rfl, rfl⟩⟩
  · exact givenName?_positional hpositional
  · exact givenName?_bare hequals
  · exact givenName?_valued hequals

/-! ## Reading -/

/-- What is known after further texts, or the first of them that is no argument. -/
def readOn (arguments : Arguments) (texts : List String) : Except InvalidArgument Arguments :=
  texts.foldlM (fun arguments text =>
    match Argument.ofText? text with
    | some argument => .ok (arguments.add argument)
    | none => .error ⟨text⟩) arguments

theorem parse_eq_readOn (texts : List String) : parse texts = readOn {} texts :=
  rfl

/-- No texts add nothing. -/
theorem readOn_nil (arguments : Arguments) : readOn arguments [] = .ok arguments :=
  rfl

/-- A text that is an argument is added, and reading goes on. -/
theorem readOn_cons_of_some (h : Argument.ofText? text = some argument) :
    readOn arguments (text :: texts) = readOn (arguments.add argument) texts := by
  rw [readOn, List.foldlM_cons, h]
  rfl

/-- Reading ends at the first text that is no argument, and the error names it. -/
theorem readOn_cons_of_none (h : Argument.ofText? text = none) : readOn arguments (text :: texts) = .error ⟨text⟩ := by
  rw [readOn, List.foldlM_cons, h]
  rfl

/-- The first option without a name ends the reading, and nothing else does. -/
theorem readOn_eq (arguments : Arguments) (texts : List String) :
    match texts.find? isNameless with
    | some text => readOn arguments texts = .error ⟨text⟩
    | none => ∃ next, readOn arguments texts = .ok next := by
  induction texts generalizing arguments with
  | nil => exact ⟨arguments, readOn_nil arguments⟩
  | cons text texts ih =>
    by_cases hnameless : isNameless text = true
    · rw [List.find?_cons_of_pos hnameless]
      exact readOn_cons_of_none (ofText?_eq_none_iff.mpr hnameless)
    · obtain ⟨argument, hargument⟩ := Option.ne_none_iff_exists'.mp (mt ofText?_eq_none_iff.mp hnameless)
      rw [List.find?_cons_of_neg hnameless, readOn_cons_of_some hargument]
      exact ih (arguments.add argument)

/-- What any command line can say: no option comes twice, each has a name without an equals sign, and no positional argument has the
form of an option. -/
structure Sound (arguments : Arguments) : Prop where
  nodup : arguments.optionNames.Nodup
  named : ∀ name ∈ arguments.optionNames, name ≠ "" ∧ '=' ∉ name.toList
  positional : ∀ text ∈ arguments.positional, Text.startsWith "--" text = false

/-- An argument adds the name of its option behind the others, unless it is there. -/
theorem optionNames_add (arguments : Arguments) (argument : Argument) :
    (arguments.add argument).optionNames = argument.name?.toList.foldl withName arguments.optionNames := by
  cases argument with
  | option name value => exact names_addOption arguments.options name value
  | positional text => rfl

/-- The names of the options are those that the texts give, each once. -/
theorem optionNames_of_parse (h : parse texts = .ok arguments) : arguments.optionNames = (texts.filterMap givenName?).eraseDups := by
  induction texts using List.reverseRecOn generalizing arguments with
  | nil =>
    obtain rfl := Except.ok.inj h
    rfl
  | append_singleton texts text ih =>
    obtain ⟨earlier, argument, hearlier, hargument, rfl⟩ := parse_concat h
    rw [optionNames_add, ih hearlier, List.filterMap_append, List.filterMap_cons, givenName?_of_ofText? hargument]
    cases argument with
    | option name value => exact (eraseDups_concat _ name).symm
    | positional text => simp [Argument.name?]

/-- Arguments that could be read stay so with one more argument that was read. -/
theorem Sound.add (h : arguments.Sound) (hargument : Argument.ofText? text = some argument) : (arguments.add argument).Sound := by
  rcases Argument.ofText?_cases hargument with ⟨rfl, hpositional⟩ | ⟨name, hname, hequals, hoption⟩
  · refine ⟨h.nodup, h.named, ?_⟩
    intro other hother
    rcases List.mem_append.mp hother with hother | hother
    · exact h.positional other hother
    · rw [List.mem_singleton.mp hother]
      exact hpositional
  · have hnames : argument.name? = some name := by
      rcases hoption with ⟨rfl, -⟩ | ⟨value, rfl, -⟩ <;> rfl
    have hpositional : (arguments.add argument).positional = arguments.positional := by
      rcases hoption with ⟨rfl, -⟩ | ⟨value, rfl, -⟩ <;> rfl
    refine ⟨nodup_optionNames_add h.nodup, ?_, hpositional ▸ h.positional⟩
    intro other hother
    rw [optionNames_add, hnames] at hother
    rcases mem_withName.mp hother with hother | rfl
    · exact h.named other hother
    · exact ⟨hname, hequals⟩

/-- Arguments that were read could be read. -/
theorem sound_of_parse (h : parse texts = .ok arguments) : arguments.Sound := by
  induction texts using List.reverseRecOn generalizing arguments with
  | nil =>
    obtain rfl := Except.ok.inj h
    exact ⟨List.nodup_nil, nofun, nofun⟩
  | append_singleton texts text ih =>
    obtain ⟨earlier, argument, hearlier, hargument, rfl⟩ := parse_concat h
    exact (ih hearlier).add hargument

/-! ## Writing -/

/-- How an option is written: with each of its values, or once if it has none. -/
def writtenOption (option : String × List String) : List String :=
  if option.2.isEmpty then ["--" ++ option.1] else option.2.map fun value => "--" ++ option.1 ++ "=" ++ value

/-- Arguments are written as their options in order, and then the positional ones. -/
theorem render_eq (arguments : Arguments) :
    arguments.render = arguments.options.flatMap writtenOption ++ arguments.positional :=
  rfl

/-- An option that is not among the first ones that are known is looked for among the others. -/
theorem addOption_append {options rest : List (String × List String)} (hnew : name ∉ options.map (·.1)) (value : Option String) :
    addOption name value (options ++ rest) = options ++ addOption name value rest := by
  induction options with
  | nil => rfl
  | cons option options ih =>
    obtain ⟨known, values⟩ := option
    rw [List.map_cons, List.mem_cons, not_or] at hnew
    simp only [List.cons_append, addOption, if_neg (Ne.symm hnew.1), ih hnew.2]

section Writing

variable {options : List (String × List String)} {positional : List String}

/-- An option of a new name goes behind the others. -/
theorem add_new (hnew : name ∉ options.map (·.1)) (value : Option String) :
    add ⟨options, positional⟩ (.option name value) = ⟨options ++ [(name, value.toList)], positional⟩ := by
  have hlast := @addOption_append name options [] hnew value
  rw [List.append_nil] at hlast
  simp only [add, hlast, addOption]

/-- A value for the last option goes behind those that it has. -/
theorem add_last {earlier : List String} (hnew : name ∉ options.map (·.1)) (value : String) :
    add ⟨options ++ [(name, earlier)], positional⟩ (.option name (some value)) =
      ⟨options ++ [(name, earlier ++ [value])], positional⟩ := by
  simp only [add, addOption_append hnew, addOption, if_true, Option.toList_some]

/-- An option that is written with a value is read as this option with this value. -/
theorem ofText?_written (hname : name ≠ "") (hequals : '=' ∉ name.toList) (value : String) :
    Argument.ofText? ("--" ++ name ++ "=" ++ value) = some (.option name (some value)) := by
  have htext : "--" ++ name ++ "=" ++ value = "--" ++ (name ++ "=" ++ value) := by simp only [String.append_assoc]
  rw [htext, ofText?_valued hequals, if_neg hname]

/-- Reading values of the last option adds them to those that it has. -/
theorem readOn_values {earlier : List String} (values : List String) (hnew : name ∉ options.map (·.1)) (hname : name ≠ "")
    (hequals : '=' ∉ name.toList) :
    readOn ⟨options ++ [(name, earlier)], positional⟩ ((values.map fun value => "--" ++ name ++ "=" ++ value) ++ texts) =
      readOn ⟨options ++ [(name, earlier ++ values)], positional⟩ texts := by
  induction values generalizing earlier with
  | nil => simp
  | cons value values ih =>
    rw [List.map_cons, List.cons_append, readOn_cons_of_some (ofText?_written hname hequals value), add_last hnew, ih,
      List.append_assoc, List.singleton_append]

/-- Reading what is written for an option that is not known yet adds it behind the others. -/
theorem readOn_writtenOption (values : List String) (hnew : name ∉ options.map (·.1)) (hname : name ≠ "")
    (hequals : '=' ∉ name.toList) :
    readOn ⟨options, positional⟩ (writtenOption (name, values) ++ texts) = readOn ⟨options ++ [(name, values)], positional⟩ texts := by
  cases values with
  | nil =>
    have hargument : Argument.ofText? ("--" ++ name) = some (.option name none) := by rw [ofText?_bare hequals, if_neg hname]
    exact (readOn_cons_of_some hargument).trans (by rw [add_new hnew]; rfl)
  | cons value values =>
    have hwritten : writtenOption (name, value :: values) ++ texts =
        ("--" ++ name ++ "=" ++ value) :: ((values.map fun value => "--" ++ name ++ "=" ++ value) ++ texts) := rfl
    rw [hwritten, readOn_cons_of_some (ofText?_written hname hequals value), add_new hnew, readOn_values values hnew hname hequals]
    rfl

/-- Reading what is written for options that are not known yet adds them behind the others. -/
theorem readOn_writtenOptions {more : List (String × List String)} (hnodup : ((options ++ more).map (·.1)).Nodup)
    (hnamed : ∀ name ∈ more.map (·.1), name ≠ "" ∧ '=' ∉ name.toList) :
    readOn ⟨options, positional⟩ (more.flatMap writtenOption ++ texts) = readOn ⟨options ++ more, positional⟩ texts := by
  induction more generalizing options with
  | nil => simp
  | cons option more ih =>
    obtain ⟨name, values⟩ := option
    obtain ⟨hname, hequals⟩ := hnamed name List.mem_cons_self
    have hnew : name ∉ options.map (·.1) := by
      intro hmem
      rw [List.map_append, List.nodup_append] at hnodup
      exact hnodup.2.2 name hmem name List.mem_cons_self rfl
    rw [List.append_cons] at hnodup ⊢
    rw [List.flatMap_cons, List.append_assoc, readOn_writtenOption values hnew hname hequals]
    exact ih hnodup fun other hother => hnamed other (List.mem_cons_of_mem _ hother)

/-- Reading positional arguments adds them behind those that are known. -/
theorem readOn_positional {more : List String} (hmore : ∀ text ∈ more, Text.startsWith "--" text = false) :
    readOn ⟨options, positional⟩ more = .ok ⟨options, positional ++ more⟩ := by
  induction more generalizing positional with
  | nil => rw [List.append_nil, readOn_nil]
  | cons text more ih =>
    rw [readOn_cons_of_some (ofText?_positional (hmore text List.mem_cons_self)), List.append_cons]
    exact ih fun other hother => hmore other (List.mem_cons_of_mem _ hother)

end Writing

/-- What a command line can say is read from its written form. -/
theorem parse_render (h : arguments.Sound) : parse arguments.render = .ok arguments := by
  have hoptions := @readOn_writtenOptions arguments.positional [] [] arguments.options h.nodup h.named
  rw [parse_eq_readOn, render_eq, hoptions]
  exact readOn_positional h.positional

/-! ## The whole command line -/

/-- An option that is not there has no values. -/
theorem optionValues?_of_notMem (h : name ∉ arguments.optionNames) : arguments.optionValues? name = none := by
  have hnone : arguments.options.find? (·.1 = name) = none := by
    rw [List.find?_eq_none]
    intro option hmem heq
    exact h (List.mem_map.mpr ⟨option, hmem, by simpa using heq⟩)
  rw [optionValues?, hnone, Option.map_none]

/-- An option that is there has a list of values. -/
theorem optionValues?_ne_none (h : name ∈ arguments.optionNames) : arguments.optionValues? name ≠ none := by
  obtain ⟨option, hmem, rfl⟩ := List.mem_map.mp h
  rw [optionValues?, Ne, Option.map_eq_none_iff, List.find?_eq_none]
  intro hnone
  exact hnone option hmem (decide_eq_true rfl)

/-- A command line with an option that has no name is not read, and the first such option is reported. Any other command line is read:
1. the positional arguments are the texts that do not begin with two dashes, in order;
2. the names of the options are those that stand between the dashes and the first equals sign or the end, each once, in order of first
   occurrence;
3. the values of an option are what stands behind the equals sign where it is given with a value, in order;
4. reading what is written for it gives the same. -/
theorem reading_of_texts (texts : List String) :
    match texts.find? isNameless with
    | some text => parse texts = .error ⟨text⟩
    | none => ∃ arguments, parse texts = .ok arguments ∧
        arguments.positional = texts.filter (!Text.startsWith "--" ·) ∧
        arguments.optionNames = (texts.filterMap givenName?).eraseDups ∧
        (∀ name, arguments.optionValues? name = if name ∈ arguments.optionNames then some (givenValues texts name) else none) ∧
        parse arguments.render = .ok arguments := by
  have hread := readOn_eq {} texts
  rw [← parse_eq_readOn] at hread
  cases hfind : texts.find? isNameless with
  | some text =>
    rw [hfind] at hread
    exact hread
  | none =>
    rw [hfind] at hread
    obtain ⟨arguments, hparse⟩ := hread
    have hsound := sound_of_parse hparse
    obtain ⟨hpositional, -, hvalues⟩ := parse_eq_ok hparse
    refine ⟨arguments, hparse, hpositional, optionNames_of_parse hparse, ?_, parse_render hsound⟩
    intro name
    by_cases hmem : name ∈ arguments.optionNames
    · rw [if_pos hmem]
      have hsome := optionValues?_ne_none hmem
      rw [hvalues name (hsound.named name hmem).2] at hsome ⊢
      by_cases hgives : Gives texts name
      · rw [if_pos hgives]
      · exact absurd (if_neg hgives) hsome
    · rw [if_neg hmem]
      exact optionValues?_of_notMem hmem

example : (parse ["--a=1", "in", "--b", "--a=x=y", "out"]).toOption =
    some { options := [("a", ["1", "x=y"]), ("b", [])], positional := ["in", "out"] } := by
  decide +kernel

end Arguments

end Ignition
