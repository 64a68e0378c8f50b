import Ignition.Proofs.Format.Lines

/-!
# Entries in writing

Entries are written with one line for each, the characters that mean something in it behind a backslash (`write`). A character is written
as itself or as a backslash and the character that it escapes (`escapeCharacter_cases`), and this is all that the reader depends on: no
line of an entry breaks off, is skipped or is continued, its key ends at the equals sign, and both parts stand for what was written. So
the reader finds the entries again, all of them and in order (`parse_write`).
-/

namespace Ignition

namespace Properties

/-! ## Writing -/

/-- A character of a key or a value as it is written. -/
def escapeCharacter (c : Char) : List Char :=
  if c = '\\' then ['\\', '\\']
  else if c = '\t' then ['\\', 't']
  else if c = '\n' then ['\\', 'n']
  else if c = '\r' then ['\\', 'r']
  else if c = '\x0c' then ['\\', 'f']
  else if c = '=' ∨ c = ':' ∨ c = '#' ∨ c = '!' ∨ Text.isBlank c = true then ['\\', c]
  else [c]

/-- A key or a value as it is written. -/
def escape (text : List Char) : List Char :=
  text.flatMap escapeCharacter

/-- The line on which an entry is written. -/
def writtenLine (entry : String × String) : List Char :=
  escape entry.1.toList ++ '=' :: escape entry.2.toList

/-- Entries as a properties file. -/
def write (entries : Entries) : String :=
  String.ofList (entries.flatMap fun entry => writtenLine entry ++ ['\n'])

/-! ## Characters -/

/-- A character that means nothing in a properties file. -/
structure Ordinary (c : Char) : Prop where
  /-- It escapes nothing. -/
  ne_backslash : c ≠ '\\'
  /-- It is not trimmed. -/
  not_blank : Text.isBlank c = false
  /-- It ends no key. -/
  not_separator : isSeparator c = false
  /-- It begins no comment. -/
  not_comment : c ≠ '#' ∧ c ≠ '!'

/-- A character that may stand behind a backslash without breaking the line or beginning a number. -/
structure Escapable (d : Char) : Prop where
  /-- It asks for no number. -/
  ne_letter : d ≠ 'u'
  /-- It ends no line. -/
  ne_feed : d ≠ '\n'
  /-- It belongs to no line end. -/
  ne_return : d ≠ '\r'

section Characters

variable {c d : Char} {text rest : List Char}

/-- Padding is white space. -/
theorem not_padding_of_not_blank (h : Text.isBlank c = false) : isPadding c = false := by
  rw [Bool.eq_false_iff] at h ⊢
  intro hpadding
  simp only [isPadding, Bool.or_eq_true, decide_eq_true_eq] at hpadding
  rcases hpadding with (rfl | rfl) | rfl <;> exact h rfl

/-- A character is written as itself, or as a backslash and the character that stands for it behind one. -/
theorem escapeCharacter_cases (c : Char) :
    (escapeCharacter c = [c] ∧ Ordinary c) ∨ ∃ d, escapeCharacter c = ['\\', d] ∧ Escapable d ∧ escaped d = c := by
  unfold escapeCharacter
  split_ifs with hbackslash htab hfeed hreturn hform hspecial
  · exact .inr ⟨'\\', rfl, ⟨by decide, by decide, by decide⟩, hbackslash.symm⟩
  · exact .inr ⟨'t', rfl, ⟨by decide, by decide, by decide⟩, htab.symm⟩
  · exact .inr ⟨'n', rfl, ⟨by decide, by decide, by decide⟩, hfeed.symm⟩
  · exact .inr ⟨'r', rfl, ⟨by decide, by decide, by decide⟩, hreturn.symm⟩
  · exact .inr ⟨'f', rfl, ⟨by decide, by decide, by decide⟩, hform.symm⟩
  · -- It is none of the letters that mean something behind a backslash, so it stands for itself there.
    have hne (d : Char) (hd : d ∈ ['t', 'n', 'r', 'f', 'u']) : c ≠ d := by
      rintro rfl
      simp only [List.mem_cons, List.not_mem_nil, or_false] at hd
      rcases hd with rfl | rfl | rfl | rfl | rfl <;> revert hspecial <;> decide
    refine .inr ⟨c, rfl, ⟨hne _ (by simp), hfeed, hreturn⟩, ?_⟩
    simp [escaped, hne]
  · simp only [not_or, Bool.not_eq_true] at hspecial
    obtain ⟨hequals, hcolon, hhash, hmark, hblank⟩ := hspecial
    have hseparator : isSeparator c = false := by
      simp [isSeparator, hequals, hcolon, not_padding_of_not_blank hblank]
    exact .inl ⟨rfl, hbackslash, hblank, hseparator, hhash, hmark⟩

/-- A text is escaped character by character. -/
theorem escape_cons : escape (c :: text) = escapeCharacter c ++ escape text :=
  rfl

/-! ## Lines -/

/-- A line does not break off inside what is written. -/
theorem notMem_escape : '\n' ∉ escape text ∧ '\r' ∉ escape text := by
  induction text with
  | nil => simp [escape]
  | cons c text ih =>
    rw [escape_cons]
    rcases escapeCharacter_cases c with ⟨hwritten, hordinary⟩ | ⟨d, hwritten, hescapable, -⟩
    · have hfeed : '\n' ≠ c := by
        rintro rfl
        exact absurd hordinary.not_blank (by decide)
      have hreturn : '\r' ≠ c := by
        rintro rfl
        exact absurd hordinary.not_blank (by decide)
      simp [hwritten, ih, hfeed, hreturn]
    · simp [hwritten, ih, hescapable.ne_feed.symm, hescapable.ne_return.symm]

/-- What is written does not begin with a character that would be trimmed or make the line a comment. -/
theorem head_escape (h : (escape text).head? = some c) : Text.isBlank c = false ∧ c ≠ '#' ∧ c ≠ '!' := by
  cases text with
  | nil => cases h
  | cons first text =>
    rw [escape_cons] at h
    rcases escapeCharacter_cases first with ⟨hwritten, hordinary⟩ | ⟨d, hwritten, -, -⟩
    · rw [hwritten] at h
      cases h
      exact ⟨hordinary.not_blank, hordinary.not_comment⟩
    · rw [hwritten] at h
      cases h
      decide

/-- What is written ends with no backslash that escapes something. -/
theorem isContinued_escape : isContinued (escape text) = false := by
  induction text with
  | nil => rfl
  | cons c text ih =>
    rw [escape_cons]
    rcases escapeCharacter_cases c with ⟨hwritten, hordinary⟩ | ⟨d, hwritten, -, -⟩
    · rw [hwritten, isContinued_append (isContinued_singleton hordinary.ne_backslash), ih]
    · rw [hwritten, isContinued_append isContinued_escaped, ih]

/-! ## Parts -/

/-- A character that neither escapes nor separates belongs to the key. -/
theorem splitKey_cons (hne : c ≠ '\\') (hseparator : isSeparator c = false) :
    splitKey (c :: rest) = (c :: (splitKey rest).1, (splitKey rest).2) := by
  rw [splitKey]
  · simp [hseparator]
  · intro _ _ hc
    exact absurd hc hne

/-- The key ends at the equals sign. -/
theorem splitKey_escape : splitKey (escape text ++ '=' :: rest) = (escape text, '=' :: rest) := by
  induction text with
  | nil => simp [escape, splitKey, isSeparator]
  | cons c text ih =>
    rw [escape_cons, List.append_assoc]
    rcases escapeCharacter_cases c with ⟨hwritten, hordinary⟩ | ⟨d, hwritten, -, -⟩
    · rw [hwritten, List.singleton_append, splitKey_cons hordinary.ne_backslash hordinary.not_separator, ih]
      rfl
    · simp [hwritten, splitKey, ih]

/-- No padding is taken from a value that is written. -/
theorem dropWhile_escape : (escape text).dropWhile isPadding = escape text := by
  cases hescape : escape text with
  | nil => rfl
  | cons c rest =>
    have hhead : (escape text).head? = some c := by
      rw [hescape]
      rfl
    obtain ⟨hblank, -⟩ := head_escape hhead
    have hpadding : isPadding c = false := not_padding_of_not_blank hblank
    rw [List.dropWhile_cons_of_neg (by simp [hpadding])]

/-- The value begins right behind the equals sign. -/
theorem dropSeparator_escape : dropSeparator ('=' :: escape text) = escape text := by
  have hequals : ('=' :: escape text).dropWhile isPadding = '=' :: escape text := List.dropWhile_cons_of_neg (by decide)
  rw [dropSeparator, hequals]
  exact dropWhile_escape

/-- What is written is read as what it was. -/
theorem unescape?_escape : unescape? (escape text) = some text := by
  induction text with
  | nil => rfl
  | cons c text ih =>
    rw [escape_cons]
    rcases escapeCharacter_cases c with ⟨hwritten, hordinary⟩ | ⟨d, hwritten, hescapable, rfl⟩
    · simp [hwritten, unescape?, hordinary.ne_backslash, ih]
    · simp [hwritten, unescape?, hescapable.ne_letter, ih]

end Characters

/-! ## Entries -/

section Entries

variable {entry : String × String} {entries : Entries} {rest : List Char}

/-- The line of an entry is a logical line by itself: it begins with a character that is neither trimmed nor that of a comment. -/
theorem head_writtenLine : ∃ c rest, writtenLine entry = c :: rest ∧ Text.isBlank c = false ∧ c ≠ '#' ∧ c ≠ '!' := by
  unfold writtenLine
  cases hkey : escape entry.1.toList with
  | nil => exact ⟨'=', _, rfl, by decide⟩
  | cons c key =>
    have hhead : (escape entry.1.toList).head? = some c := by
      rw [hkey]
      rfl
    exact ⟨c, _, rfl, head_escape hhead⟩

/-- A line that was written is not continued. -/
theorem isContinued_writtenLine : isContinued (writtenLine entry) = false := by
  rw [writtenLine, isContinued_append isContinued_escape, ← List.singleton_append,
    isContinued_append (isContinued_singleton (by decide)), isContinued_escape]

/-- A line that was written is one line. -/
theorem lines_writtenLine : Text.lines (writtenLine entry ++ '\n' :: rest) = writtenLine entry :: Text.lines rest := by
  have hfeed : '\n' ∉ writtenLine entry := by simp [writtenLine, notMem_escape]
  have hreturn : '\r' ∉ writtenLine entry := by simp [writtenLine, notMem_escape]
  have hlast : (writtenLine entry).getLast? ≠ some '\r' := fun h => hreturn (List.mem_of_getLast? h)
  rw [Text.lines_append hfeed, Text.withoutReturn_of_ne hlast]

/-- The entry on the line of an entry is that entry. -/
theorem entry_writtenLine (number : Nat) : LogicalLine.entry ⟨number, writtenLine entry⟩ = .ok entry := by
  have hsplit : splitKey (writtenLine entry) = (escape entry.1.toList, '=' :: escape entry.2.toList) := splitKey_escape
  have hkey : keyPart (writtenLine entry) = escape entry.1.toList := by rw [keyPart, hsplit]
  have hvalue : valuePart (writtenLine entry) = escape entry.2.toList := by rw [valuePart, hsplit, dropSeparator_escape]
  simp only [entry_eq, hkey, hvalue, unescape?_escape, String.ofList_toList]

/-- One after the other the entries are read. -/
theorem mapM_entry_written (number : Nat) :
    (logicalLines none number (Text.lines (entries.flatMap fun entry => writtenLine entry ++ ['\n']))).mapM LogicalLine.entry =
      .ok entries := by
  induction entries generalizing number with
  | nil => rfl
  | cons entry entries ih =>
    obtain ⟨c, rest, hline, hblank, hhash, hmark⟩ := @head_writtenLine entry
    have htrimmed : Text.trimLeft (writtenLine entry) = writtenLine entry := by
      rw [hline, Text.trimLeft, List.dropWhile_cons_of_neg (by simp [hblank])]
    have hskipped : isSkipped (Text.trimLeft (writtenLine entry)) = false := by
      rw [htrimmed, hline]
      simp [isSkipped, hhash, hmark]
    have hended : isContinued (Text.trimLeft (writtenLine entry)) = false := by
      rw [htrimmed]
      exact isContinued_writtenLine
    rw [List.flatMap_cons, List.append_assoc, List.singleton_append, lines_writtenLine,
      logicalLines_of_ended (.inr hskipped) hended, htrimmed, List.mapM_cons, extended, entry_writtenLine, ih]
    rfl

end Entries

/-- A properties file that entries are written to holds these entries: all of them, in order, and each as often as it was written. -/
theorem parse_write (entries : Entries) : parse (write entries) = .ok entries := by
  rw [parse, write, String.toList_ofList]
  exact mapM_entry_written 1

example : write [("a b", "#"), ("", "\\")] = "a\\ b=\\#\n=\\\\\n" := by
  decide +kernel

end Properties

end Ignition
