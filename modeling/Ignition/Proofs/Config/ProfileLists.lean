import Ignition.Proofs.Config.Profiles
import Ignition.Proofs.Text.Separation

/-!
# Lists of profiles

A list of profiles is bound unless one of its words has white space in it, and then the first such word is the one that is reported. What
is bound are the words of the list that are not empty, each once, in the order they first come. The names of a set that was bound are
written with commas between them, with white space around them and with empty words among them as one likes (`Padding`): such a list binds
to the set again (`binding_of_list`).
-/

namespace Ignition

namespace ProfileSet

variable {key list word name : String} {words names pieces : List String} {set : ProfileSet} {invalid : InvalidProfile}

/-! ## Names -/

/-- The profiles of some names are asked for once each, in the order the names first come. -/
theorem profiles_ofList (names : List String) :
    (ofList (names.map fun name => { name })).profiles = names.eraseDups.map fun name => { name } := by
  induction names using List.reverseRecOn with
  | nil => rfl
  | append_singleton names name ih =>
    have hlast : ofList ((names ++ [name]).map fun name => { name }) = (ofList (names.map fun name => { name })).insert { name } := by
      rw [List.map_append]
      exact List.foldl_append
    have hnames : (ofList (names.map fun name => { name })).names = names.eraseDups := by
      simp [ProfileSet.names, ih, Function.comp_def]
    rw [hlast, eraseDups_concat, insert, withName, contains, hnames]
    split
    · exact ih
    · rw [ih, List.map_append]
      rfl

/-- A word is without white space if none of its characters is blank. -/
theorem hasBlank_eq_false_iff : hasBlank word = false ↔ ∀ c ∈ word.toList, Text.isBlank c = false := by
  simp [hasBlank]

/-! ## Binding -/

/-- What is bound is told by the words of a list. A word with white space in it is not empty, so it is found among all words. -/
theorem parse_of_lists (h : Text.Lists list words) : parse key list =
    match words.find? hasBlank with
    | some profile => .error { key, profile, reason := InvalidProfile.blankInName }
    | none => .ok ⟨(words.filter (· ≠ "")).eraseDups.map fun name => { name }⟩ := by
  have hfind : (words.filter (· ≠ "")).find? hasBlank = words.find? hasBlank := by
    rw [List.find?_filter]
    refine congrArg (words.find? ·) (funext fun word => ?_)
    by_cases hempty : word = ""
    · subst hempty
      rfl
    · simp [hempty]
  simp only [parse, h.listEntries_eq, hfind]
  cases words.find? hasBlank with
  | some profile => rfl
  | none => exact congrArg Except.ok (congrArg ProfileSet.mk (profiles_ofList _))

/-- A list cannot be read exactly if one of its words has white space, and the first such word is to blame. -/
theorem parse_eq_error_iff (h : Text.Lists list words) : parse key list = .error invalid ↔
    ∃ before profile after, words = before ++ profile :: after ∧ (∀ word ∈ before, hasBlank word = false) ∧
      hasBlank profile = true ∧ invalid = { key, profile, reason := InvalidProfile.blankInName } := by
  rw [parse_of_lists h]
  constructor
  · intro herror
    cases hfind : words.find? hasBlank with
    | none => rw [hfind] at herror; cases herror
    | some profile =>
      rw [hfind] at herror
      obtain ⟨hblank, before, after, hwords, hbefore⟩ := List.find?_eq_some_iff_append.mp hfind
      exact ⟨before, profile, after, hwords, by simpa using hbefore, hblank, (Except.error.inj herror).symm⟩
  · rintro ⟨before, profile, after, hwords, hbefore, hblank, rfl⟩
    have hfind : words.find? hasBlank = some profile :=
      List.find?_eq_some_iff_append.mpr ⟨hblank, before, after, hwords, by simpa using hbefore⟩
    rw [hfind]

/-- Any other list has its words, each once, but for the empty ones. -/
theorem parse_eq_ok_iff (h : Text.Lists list words) : parse key list = .ok set ↔
    (∀ word ∈ words, hasBlank word = false) ∧ set.profiles = (words.filter (· ≠ "")).eraseDups.map fun name => { name } := by
  have hnone : words.find? hasBlank = none ↔ ∀ word ∈ words, hasBlank word = false := by simp
  rw [parse_of_lists h, ← hnone]
  cases words.find? hasBlank with
  | some profile => exact iff_of_false nofun fun h => nomatch h.1
  | none =>
    constructor
    · rintro ⟨⟩
      exact ⟨rfl, rfl⟩
    · rintro ⟨-, hset⟩
      rw [← hset]

/-- A list is not bound exactly if a word of it has white space in it. -/
theorem exists_parse_error_iff (h : Text.Lists list words) :
    (∃ invalid, parse key list = .error invalid) ↔ ∃ word ∈ words, hasBlank word = true := by
  rw [parse_of_lists h, ← List.find?_isSome]
  cases words.find? hasBlank with
  | some profile => exact iff_of_true ⟨_, rfl⟩ rfl
  | none => exact iff_of_false nofun nofun

/-- The profiles that a list binds are told by their names. -/
theorem profiles_of_parse (h : parse key list = .ok set) : set.profiles = set.names.map fun name => { name } := by
  obtain ⟨-, hset⟩ := (parse_eq_ok_iff (Text.lists_iff.mpr rfl)).mp h
  rw [names, hset, List.map_map, List.map_map]
  rfl

/-- The names that a list binds are not empty, and have neither a comma nor white space in them. -/
theorem name_of_parse (h : parse key list = .ok set) (hname : name ∈ set.names) :
    name ≠ "" ∧ ',' ∉ name.toList ∧ hasBlank name = false := by
  have hlists : Text.Lists list _ := Text.lists_iff.mpr rfl
  obtain ⟨hblank, hset⟩ := (parse_eq_ok_iff hlists).mp h
  rw [names, hset, List.map_map, Function.comp_def, List.map_id', List.mem_eraseDups, List.mem_filter, decide_eq_true_eq] at hname
  refine ⟨hname.2, ?_, hblank name hname.1⟩
  obtain ⟨piece, hpiece, rfl⟩ := List.mem_map.mp hname.1
  obtain ⟨left, right, htext, -, -⟩ := Text.padded_trim piece
  have hnone := (Text.separated_split ',' list.toList).notMem piece hpiece
  rw [htext, List.append_assoc, List.mem_append, List.mem_append] at hnone
  rw [String.toList_ofList]
  exact fun hcomma => hnone (.inr (.inl hcomma))

/-! ## Binding again -/

/-- Texts that stand for some names in a list: each name with white space around it, in order, and among them texts of white space
alone. -/
inductive Padding : List String → List String → Prop where
  | nil : Padding [] []
  | empty {blank : String} {names pieces : List String} :
      (∀ c ∈ blank.toList, Text.isBlank c = true) → Padding names pieces → Padding names (blank :: pieces)
  | name {name piece : String} {names pieces : List String} :
      Text.Padded name.toList piece.toList → Padding names pieces → Padding (name :: names) (piece :: pieces)

theorem Padding.comma_notMem (h : Padding names pieces) (hnames : ∀ name ∈ names, ',' ∉ name.toList) :
    ∀ piece ∈ pieces, ',' ∉ piece.toList := by
  have hcomma {text : List Char} (hblank : ∀ c ∈ text, Text.isBlank c = true) : ',' ∉ text :=
    fun hmem => nomatch hblank ',' hmem
  induction h with
  | nil => exact nofun
  | empty hblank _ ih => exact List.forall_mem_cons.mpr ⟨hcomma hblank, ih hnames⟩
  | @name name piece names pieces hpadded _ ih =>
    rw [List.forall_mem_cons] at hnames
    obtain ⟨left, right, hpiece, hleft, hright⟩ := hpadded
    refine List.forall_mem_cons.mpr ⟨?_, ih hnames.2⟩
    rw [hpiece, List.mem_append, List.mem_append]
    rintro ((hmem | hmem) | hmem)
    · exact hcomma hleft hmem
    · exact hnames.1 hmem
    · exact hcomma hright hmem

/-- Without the white space, the texts that are not empty are the names. -/
theorem Padding.words_eq (h : Padding names pieces) (hnames : ∀ name ∈ names, name ≠ "" ∧ hasBlank name = false) :
    (pieces.map Text.trimString).filter (· ≠ "") = names ∧ ∀ word ∈ pieces.map Text.trimString, hasBlank word = false := by
  induction h with
  | nil => exact ⟨rfl, nofun⟩
  | @empty blank names pieces hblank _ ih =>
    obtain ⟨hwords, hrest⟩ := ih hnames
    have hempty : Text.trimString blank = "" := by rw [Text.trimString, Text.trim_of_blank hblank]
    rw [List.map_cons, hempty, List.filter_cons_of_neg (by simp)]
    exact ⟨hwords, List.forall_mem_cons.mpr ⟨rfl, hrest⟩⟩
  | @name name piece names pieces hpadded _ ih =>
    rw [List.forall_mem_cons] at hnames
    obtain ⟨⟨hne, hblank⟩, hothers⟩ := hnames
    obtain ⟨hwords, hrest⟩ := ih hothers
    have hname : Text.trimString piece = name := by
      rw [Text.trimString, (Text.trim_eq_iff (hasBlank_eq_false_iff.mp hblank)).mpr hpadded, String.ofList_toList]
    rw [List.map_cons, hname, List.filter_cons_of_pos (by simpa using hne), hwords]
    exact ⟨rfl, List.forall_mem_cons.mpr ⟨hblank, hrest⟩⟩

/-- What texts without commas stand for, joined with commas between them. -/
theorem lists_commaJoin (hne : pieces ≠ []) (hcomma : ∀ piece ∈ pieces, ',' ∉ piece.toList) :
    Text.Lists (Text.commaJoin pieces) (pieces.map Text.trimString) := by
  have hseparated : Text.Separated ',' (pieces.map String.toList) (Text.commaJoin pieces).toList := by
    refine ⟨by simpa using hne, by simpa using hcomma, ?_⟩
    rw [Text.commaJoin, String.toList_intercalate]
    rfl
  rw [Text.lists_iff, hseparated.split_eq, List.map_map]
  rfl

/-- The names of a set that was bound, written as a list with padding, bind to the set again. -/
theorem parse_of_padding {other : String} (h : parse key list = .ok set) (hpadding : Padding set.names pieces) :
    parse other (Text.commaJoin pieces) = .ok set := by
  have hnames := fun name hname => @name_of_parse key list name set h hname
  obtain ⟨hwords, hblank⟩ := hpadding.words_eq fun name hname => ⟨(hnames name hname).1, (hnames name hname).2.2⟩
  by_cases hne : pieces = []
  · -- No texts make the empty list, which binds no profile.
    subst hne
    have hnone : set.names = [] := by
      generalize set.names = names at hpadding
      cases hpadding
      rfl
    obtain rfl : set = {} := congrArg ProfileSet.mk (names_eq_nil_iff.mp hnone)
    rfl
  · have hlists := lists_commaJoin hne (hpadding.comma_notMem fun name hname => (hnames name hname).2.1)
    rw [parse_eq_ok_iff hlists, hwords, eraseDups_of_nodup (nodup_of_parse h)]
    exact ⟨hblank, profiles_of_parse h⟩

/-- A list has words in one way. It is not bound exactly if a word has white space in it, and then the first such word is reported. Else
what is bound are the words that are not empty, each once, in the order they first come, and none of them stands in. The names of what is
bound, joined with commas, bind to the same again under any key, whatever white space is put around them and whatever empty words among
them. -/
theorem binding_of_list (key list : String) :
    ∃ words, Text.Lists list words ∧ (∀ others, Text.Lists list others → others = words) ∧
      ((∃ invalid, parse key list = .error invalid) ↔ ∃ word ∈ words, hasBlank word = true) ∧
      (∀ invalid, parse key list = .error invalid ↔
        ∃ before profile after, words = before ++ profile :: after ∧ (∀ word ∈ before, hasBlank word = false) ∧
          hasBlank profile = true ∧ invalid = { key, profile, reason := "profile names must not contain whitespace" }) ∧
      (∀ set, parse key list = .ok set ↔ (∀ word ∈ words, hasBlank word = false) ∧
        set.profiles = (words.filter (· ≠ "")).eraseDups.map fun name => { name, standsIn := false }) ∧
      ∀ set, parse key list = .ok set → ∀ pieces, Padding set.names pieces →
        ∀ other, parse other (Text.commaJoin pieces) = .ok set := by
  have hlists : Text.Lists list _ := Text.lists_iff.mpr rfl
  exact ⟨_, hlists, fun others hothers => (Text.lists_iff.mp hothers).symm.trans (Text.lists_iff.mp hlists),
    exists_parse_error_iff hlists, fun invalid => parse_eq_error_iff hlists, fun set => parse_eq_ok_iff hlists,
    fun set hset pieces hpadding other => parse_of_padding hset hpadding⟩

end ProfileSet

end Ignition
