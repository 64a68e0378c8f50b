import Ignition.Proofs.Format.Lines
import Ignition.Proofs.Text.Trimming
import Mathlib.Data.List.DropRight

/-!
# Breaking a line

What a properties file says does not depend on where its logical lines are broken: behind any character of one that is not escaped, a
backslash, a line feed and some blanks may stand (`parse_of_break`). The entries of a file hang on the texts of its logical lines alone
(`toOption_parse`), these texts do not hang on the numbers of the lines (`texts_congr`), and a line that is broken is taken in by two
steps as it is by one (`texts_break`).
-/

namespace Ignition

namespace Text

variable {c : Char} {text : List Char}

/-- A text that begins with no white space goes on with the line in front of it, and has its other lines by itself. -/
theorem exists_lines_append (h : isBlank c = false) : ∃ first rest, ∀ before, '\n' ∉ before →
    lines (before ++ c :: text) = (before ++ c :: first) :: rest := by
  by_cases hfeed : '\n' ∈ c :: text
  · obtain ⟨line, others, heq, hline⟩ := List.eq_append_cons_of_mem hfeed
    cases line with
    | nil =>
      cases heq
      cases h
    | cons first line =>
      cases heq
      have hreturn : c ≠ '\r' := by
        rintro rfl
        cases h
      refine ⟨withoutReturn line, lines others, fun before hbefore => ?_⟩
      have hbroken : '\n' ∉ before ++ c :: line := by
        rw [List.mem_append, not_or]
        exact ⟨hbefore, hline⟩
      rw [← withoutReturn_cons hreturn, ← withoutReturn_append (List.cons_ne_nil c line), ← lines_append hbroken, List.append_assoc]
      rfl
  · refine ⟨text, [], fun before hbefore => lines_of_notMem ?_ (by simp)⟩
    simp only [List.mem_append, not_or]
    exact ⟨hbefore, hfeed⟩

end Text

namespace Properties

section Break

variable {pending pending' : Option LogicalLine} {number number' : Nat} {first last blanks more text : List Char}
  {lines rest : List (List Char)}

/-! ## Texts of logical lines -/

/-- The entry on a logical line with some text, if it can be read. -/
def entry? (text : List Char) : Option (String × String) := do
  let key ← unescape? (keyPart text)
  let value ← unescape? (valuePart text)
  return (String.ofList key, String.ofList value)

theorem toOption_entry (line : LogicalLine) : line.entry.toOption = entry? line.text := by
  rw [entry_eq, entry?]
  cases unescape? (keyPart line.text) with
  | none => rfl
  | some key => cases unescape? (valuePart line.text) <;> rfl

/-- The entries of a text depend on the texts of its logical lines alone. -/
theorem toOption_mapM_entry (lines : List LogicalLine) : (lines.mapM LogicalLine.entry).toOption = (lines.map (·.text)).mapM entry? := by
  induction lines with
  | nil => rfl
  | cons line lines ih =>
    rw [List.map_cons, List.mapM_cons, List.mapM_cons, ← toOption_entry, ← ih]
    cases line.entry with
    | error error => rfl
    | ok entry => cases lines.mapM LogicalLine.entry <;> rfl

/-- A logical line that is extended has its text and the new one behind it. -/
theorem text_extended : (extended pending number text).text = pending.elim [] (·.text) ++ text := by
  cases pending <;> rfl

/-- The texts of logical lines do not depend on the numbers of the lines. -/
theorem texts_congr (h : pending.map (·.text) = pending'.map (·.text)) :
    (logicalLines pending number lines).map (·.text) = (logicalLines pending' number' lines).map (·.text) := by
  induction lines generalizing pending pending' number number' with
  | nil => cases pending <;> cases pending' <;> simp_all [logicalLines]
  | cons first rest ih =>
    have hisSome : pending.isSome = pending'.isSome := by
      rw [← Option.isSome_map (f := fun line : LogicalLine => line.text), h, Option.isSome_map]
    have htext (text : List Char) : (extended pending number text).text = (extended pending' number' text).text := by
      rw [text_extended, text_extended]
      cases pending <;> cases pending' <;> simp_all
    rcases taken_or_skipped pending first with htaken | ⟨rfl, hskipped⟩
    · have htaken' : pending'.isSome = true ∨ isSkipped (Text.trimLeft first) = false := hisSome ▸ htaken
      cases hcontinued : isContinued (Text.trimLeft first) with
      | true =>
        rw [logicalLines_of_continued htaken hcontinued, logicalLines_of_continued htaken' hcontinued]
        exact ih (congrArg some (htext _))
      | false =>
        rw [logicalLines_of_ended htaken hcontinued, logicalLines_of_ended htaken' hcontinued, List.map_cons, List.map_cons,
          htext, ih rfl]
    · obtain rfl : pending' = none := Option.map_eq_none_iff.mp h.symm
      rw [logicalLines_of_skipped hskipped, logicalLines_of_skipped hskipped]
      exact ih rfl

/-! ## Lines that are broken -/

/-- White space at the beginning of a line makes no difference to its end. -/
theorem isContinued_trimLeft : isContinued (Text.trimLeft last) = isContinued last := by
  have hblanks : isContinued (last.takeWhile Text.isBlank) = false :=
    isContinued_of_notMem fun hmem => absurd (List.mem_takeWhile_imp hmem) (by decide)
  conv_rhs => rw [← List.takeWhile_append_dropWhile (p := Text.isBlank) (l := last), isContinued_append hblanks]
  rfl

/-- A line that begins with something is skipped or not whatever stands behind it. -/
theorem isSkipped_append (h : text ≠ []) : isSkipped (text ++ more) = isSkipped text := by
  cases text with
  | nil => exact absurd rfl h
  | cons c text => rfl

/-- What is taken in one after the other is taken in together. -/
theorem text_extended_twice : (extended (some (extended pending number text)) number' more).text =
    (extended pending number (text ++ more)).text := by
  rw [text_extended, text_extended, Option.elim_some, text_extended, List.append_assoc]

/-- A line behind another one that was taken in is taken in as if the two were one. -/
theorem texts_together (htaken : pending.isSome = true ∨ isSkipped (Text.trimLeft last) = false)
    (hfilled : ∃ c ∈ last, Text.isBlank c = false) (heven : isContinued last = false) (hblanks : ∀ c ∈ blanks, Text.isBlank c = true)
    (hfirst : Text.trimLeft first = first) :
    (logicalLines (some (extended pending number (Text.trimLeft last))) (number + 1) ((blanks ++ first) :: rest)).map (·.text) =
      (logicalLines pending number ((last ++ first) :: rest)).map (·.text) := by
  have hwhole : Text.trimLeft (last ++ first) = Text.trimLeft last ++ first := Text.trimLeft_append hfilled
  have hpart : Text.trimLeft (blanks ++ first) = first := by rw [Text.trimLeft_of_blank hblanks, hfirst]
  have htaken' : pending.isSome = true ∨ isSkipped (Text.trimLeft (last ++ first)) = false := by
    rw [hwhole, isSkipped_append (Text.trimLeft_ne_nil hfilled)]
    exact htaken
  have hend : isContinued (Text.trimLeft (last ++ first)) = isContinued first := by
    rw [hwhole, isContinued_append (isContinued_trimLeft.trans heven)]
  cases hcontinued : isContinued first with
  | true =>
    have hne : first ≠ [] := by
      rintro rfl
      cases hcontinued
    rw [logicalLines_of_continued (.inl rfl) (by rw [hpart, hcontinued]), logicalLines_of_continued htaken' (by rw [hend, hcontinued]),
      hpart, hwhole, List.dropLast_append_of_ne_nil hne]
    exact texts_congr (congrArg some text_extended_twice)
  | false =>
    rw [logicalLines_of_ended (.inl rfl) (by rw [hpart, hcontinued]), logicalLines_of_ended htaken' (by rw [hend, hcontinued]),
      hpart, hwhole, List.map_cons, List.map_cons, text_extended_twice, texts_congr rfl]

/-- A line that is broken is taken in as it is in one piece. Where the text ends with the break, there may be a line of blanks behind it. -/
theorem texts_break (hfeed : '\n' ∉ last) (hfilled : ∃ c ∈ last, Text.isBlank c = false) (heven : isContinued last = false)
    (htaken : pending.isSome = true ∨ isSkipped (Text.trimLeft last) = false)
    (hmore : ∀ c ∈ more.head?, Text.isBlank c = false) (hblanks : ∀ c ∈ blanks, Text.isBlank c = true) (hfeed' : '\n' ∉ blanks) :
    (logicalLines pending number (Text.lines (last ++ '\\' :: '\n' :: (blanks ++ more)))).map (·.text) =
      (logicalLines pending number (Text.lines (last ++ more))).map (·.text) := by
  have hne : last ≠ [] := by
    rintro rfl
    simp at hfilled
  have hlines : Text.lines (last ++ '\\' :: '\n' :: (blanks ++ more)) = (last ++ ['\\']) :: Text.lines (blanks ++ more) := by
    have hsplit : last ++ '\\' :: '\n' :: (blanks ++ more) = (last ++ ['\\']) ++ '\n' :: (blanks ++ more) := by simp
    rw [hsplit, Text.lines_append (by simp [hfeed]), Text.withoutReturn_of_ne (by simp)]
  have htrimmed : Text.trimLeft (last ++ ['\\']) = Text.trimLeft last ++ ['\\'] := Text.trimLeft_append hfilled
  have hcontinued : isContinued (Text.trimLeft (last ++ ['\\'])) = true := by
    rw [htrimmed, isContinued_concat, isContinued_trimLeft, heven]
    rfl
  have htaken' : pending.isSome = true ∨ isSkipped (Text.trimLeft (last ++ ['\\'])) = false := by
    rw [htrimmed, isSkipped_append (Text.trimLeft_ne_nil hfilled)]
    exact htaken
  rw [hlines, logicalLines_of_continued htaken' hcontinued, htrimmed, List.dropLast_concat]
  cases more with
  | nil =>
    have hended : isContinued (Text.trimLeft last) = false := isContinued_trimLeft.trans heven
    have hone : (logicalLines pending number (Text.lines (last ++ []))).map (·.text) =
        [(extended pending number (Text.trimLeft last)).text] := by
      rw [List.append_nil, Text.lines_of_notMem hfeed hne, logicalLines_of_ended htaken hended]
      rfl
    rw [hone, List.append_nil]
    by_cases hnil : blanks = []
    · subst hnil
      rfl
    · have htogether : (logicalLines (some (extended pending number (Text.trimLeft last))) (number + 1) [blanks ++ []]).map (·.text) =
          (logicalLines pending number [last ++ []]).map (·.text) := texts_together htaken hfilled heven hblanks rfl
      rw [List.append_nil, List.append_nil] at htogether
      rw [Text.lines_of_notMem hfeed' hnil, htogether, logicalLines_of_ended htaken hended]
      rfl
  | cons c more =>
    have hblank : Text.isBlank c = false := hmore c rfl
    obtain ⟨first, rest, hcut⟩ : ∃ first rest, ∀ before, '\n' ∉ before →
        Text.lines (before ++ c :: more) = (before ++ c :: first) :: rest := Text.exists_lines_append hblank
    rw [hcut blanks hfeed', hcut last hfeed]
    exact texts_together htaken hfilled heven hblanks (Text.trimLeft_cons hblank)

end Break

/-! ## Texts -/

/-- The last line of a text, which stands behind its last line feed. -/
def lastLine (text : String) : List Char :=
  text.toList.rtakeWhile (· ≠ '\n')

/-- The lines of a text before its last one. -/
def linesBefore (text : String) : List (List Char) :=
  Text.lines (text.toList.rdropWhile (· ≠ '\n'))

/-- Whether a line is a comment if it begins a logical line. -/
def isComment (line : List Char) : Bool :=
  (Text.trimLeft line).head?.any fun c => c = '#' || c = '!'

section Texts

variable {text : String} {rest : List Char}

/-- There is no line break in the last line. -/
theorem notMem_lastLine : '\n' ∉ lastLine text := by
  intro hmem
  have hne := List.mem_rtakeWhile_imp hmem
  simp at hne

/-- What follows a text stands behind its last line, and before this one there are its other lines. -/
theorem lines_lastLine : Text.lines (text.toList ++ rest) = linesBefore text ++ Text.lines (lastLine text ++ rest) := by
  have hsplit : text.toList = text.toList.rdropWhile (· ≠ '\n') ++ lastLine text := List.rdropWhile_append_rtakeWhile.symm
  have hfeed (hne : text.toList.rdropWhile (· ≠ '\n') ≠ []) : (text.toList.rdropWhile (· ≠ '\n')).getLast hne = '\n' := by
    have hlast := List.rdropWhile_last_not _ _ hne
    simpa using hlast
  conv_lhs => rw [hsplit, List.append_assoc]
  unfold linesBefore
  generalize text.toList.rdropWhile (· ≠ '\n') = before at hfeed
  rcases List.eq_nil_or_concat' before with rfl | ⟨before, c, rfl⟩
  · rfl
  · obtain rfl : c = '\n' := by simpa using hfeed (by simp)
    rw [List.append_assoc, List.singleton_append, Text.lines_append_feed]

/-- The entries of a text are read from the texts of its logical lines. -/
theorem toOption_parse : (parse text).toOption = ((logicalLines none 1 (Text.lines text.toList)).map (·.text)).mapM entry? :=
  toOption_mapM_entry _

end Texts

/-- Behind a text whose last line holds more than white space, is no comment, unless it continues another line, and ends with an even number
of backslashes, a backslash, a line feed and some blanks make no difference to what is read, if what follows does not begin with white
space: either the text is read as the same entries with them and without, or in neither case. -/
theorem parse_of_break (ahead behind blanks : String) (hfilled : ∃ c ∈ lastLine ahead, Text.isBlank c = false)
    (hbegun : isComment (lastLine ahead) = false ∨ openBehind false (linesBefore ahead) = true)
    (heven : backslashes (lastLine ahead) % 2 = 0) (hbehind : ∀ c ∈ behind.toList.head?, Text.isBlank c = false)
    (hblanks : ∀ c ∈ blanks.toList, c = ' ' ∨ c = '\t') :
    (parse (ahead ++ "\\\n" ++ blanks ++ behind)).toOption = (parse (ahead ++ behind)).toOption := by
  obtain ⟨closed, pending, hopen, hread⟩ := exists_logicalLines_append none 1 (linesBefore ahead)
  have htexts (rest : List Char) (text : String) (h : text.toList = ahead.toList ++ rest) : (parse text).toOption =
      (closed.map (·.text) ++ (logicalLines pending (1 + (linesBefore ahead).length) (Text.lines (lastLine ahead ++ rest))).map
        (·.text)).mapM entry? := by
    rw [toOption_parse, h, lines_lastLine, hread, List.map_append]
  have htaken : pending.isSome = true ∨ isSkipped (Text.trimLeft (lastLine ahead)) = false := by
    rcases hbegun with hcomment | hbegun
    · refine .inr ?_
      cases hline : Text.trimLeft (lastLine ahead) with
      | nil => exact absurd hline (Text.trimLeft_ne_nil hfilled)
      | cons c rest => simpa [isComment, isSkipped, hline] using hcomment
    · exact .inl (hopen.trans hbegun)
  have hblank : ∀ c ∈ blanks.toList, Text.isBlank c = true := by
    intro c hc
    rcases hblanks c hc with rfl | rfl <;> rfl
  have hfeed : '\n' ∉ blanks.toList := by
    intro hmem
    rcases hblanks _ hmem with h | h <;> cases h
  rw [htexts ('\\' :: '\n' :: (blanks.toList ++ behind.toList)) _ (by simp), htexts behind.toList _ (by simp),
    texts_break notMem_lastLine hfilled (isContinued_eq_false_iff.mpr heven) htaken hbehind hblank hfeed]

/-- A break inside a number, in a line that looks like a comment and continues another one, before one more break. -/
theorem parse_of_break_insideNumber :
    (∃ c ∈ lastLine "k\\\n # =\\u00", Text.isBlank c = false) ∧ openBehind false (linesBefore "k\\\n # =\\u00") = true ∧
      backslashes (lastLine "k\\\n # =\\u00") % 2 = 0 ∧ (∀ c ∈ "41\\\n b".toList.head?, Text.isBlank c = false) ∧
      (∀ c ∈ " \t".toList, c = ' ' ∨ c = '\t') ∧
      (parse ("k\\\n # =\\u00" ++ "\\\n" ++ " \t" ++ "41\\\n b")).toOption = some [("k#", "Ab")] := by
  have hfilled : ∃ c ∈ lastLine "k\\\n # =\\u00", Text.isBlank c = false := ⟨'#', by decide +kernel, rfl⟩
  have hbegun : openBehind false (linesBefore "k\\\n # =\\u00") = true := by decide +kernel
  have heven : backslashes (lastLine "k\\\n # =\\u00") % 2 = 0 := by decide +kernel
  have hbehind : ∀ c ∈ "41\\\n b".toList.head?, Text.isBlank c = false := by
    have hhead : "41\\\n b".toList.head? = some '4' := by decide +kernel
    rw [hhead]
    rintro c ⟨⟩
    rfl
  have hblanks : ∀ c ∈ " \t".toList, c = ' ' ∨ c = '\t' := by
    intro c hc
    have hmem : c ∈ [' ', '\t'] := hc
    simpa using hmem
  refine ⟨hfilled, hbegun, heven, hbehind, hblanks, ?_⟩
  rw [parse_of_break "k\\\n # =\\u00" "41\\\n b" " \t" hfilled (.inr hbegun) heven hbehind hblanks]
  decide +kernel

end Properties

end Ignition
