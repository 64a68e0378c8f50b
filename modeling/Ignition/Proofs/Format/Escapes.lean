import Ignition.Proofs.Format.Lines
import Ignition.Proofs.Sequence

/-!
# Which escapes are read

A backslash that none before it escapes, with the letter `u` behind it, stands for the character whose number comes next. A part of a
logical line is read exactly if each of these is followed, in that part, by four hexadecimal digits that write the number of a character,
or by a plus sign and three of them (`unescape?_isSome_iff`). A text is read exactly if that holds of both parts of each of its logical
lines, and otherwise the error names the first one of which it does not, by the line that it begins on (`outcome_of_escapes`).
-/

namespace Ignition

namespace Properties

/-! ## Numbers of characters -/

/-- A hexadecimal digit and its value. -/
inductive HexDigit : Char → Nat → Prop where
  | decimal {c : Char} : '0' ≤ c → c ≤ '9' → HexDigit c (c.toNat - '0'.toNat)
  | lower {c : Char} : 'a' ≤ c → c ≤ 'f' → HexDigit c (c.toNat - 'a'.toNat + 10)
  | upper {c : Char} : 'A' ≤ c → c ≤ 'F' → HexDigit c (c.toNat - 'A'.toNat + 10)

/-- Four hexadecimal digits that write the number of a character. -/
def WritesCharacter (a b c d : Char) : Prop :=
  ∃ p q r s, HexDigit a p ∧ HexDigit b q ∧ HexDigit c r ∧ HexDigit d s ∧ (p * 4096 + q * 256 + r * 16 + s).isValidChar

/-- A plus sign and three hexadecimal digits. -/
def WritesSigned (a b c d : Char) : Prop :=
  a = '+' ∧ ∃ q r s, HexDigit b q ∧ HexDigit c r ∧ HexDigit d s

/-- Four characters that are read as the number of a character. -/
def WritesNumber (a b c d : Char) : Prop :=
  WritesCharacter a b c d ∨ WritesSigned a b c d

section Numbers

variable {a b c d : Char} {n v : Nat}

/-- Characters are ordered as their code points are. -/
theorem le_iff_toNat_le {c d : Char} : c ≤ d ↔ c.toNat ≤ d.toNat :=
  Iff.rfl

/-- A hexadecimal digit is a digit of base sixteen. -/
theorem hexDigit_iff : HexDigit c v ↔ Text.digitValue? 16 c = some v := by
  have hvalue : Text.digitValue? 16 c = some v ↔
      ('0' ≤ c ∧ c ≤ '9' ∧ v = c.toNat - '0'.toNat) ∨ ('a' ≤ c ∧ c ≤ 'f' ∧ v = c.toNat - 'a'.toNat + 10) ∨
        ('A' ≤ c ∧ c ≤ 'F' ∧ v = c.toNat - 'A'.toNat + 10) := by
    simp only [Text.digitValue?, le_iff_toNat_le, Bool.and_eq_true, decide_eq_true_eq, Option.filter_eq_some_iff, Char.reduceToNat]
    split_ifs <;> simp only [Option.some.injEq, false_and, false_iff] <;> omega
  rw [hvalue]
  constructor
  · rintro (⟨hleast, hmost⟩ | ⟨hleast, hmost⟩ | ⟨hleast, hmost⟩)
    · exact .inl ⟨hleast, hmost, rfl⟩
    · exact .inr (.inl ⟨hleast, hmost, rfl⟩)
    · exact .inr (.inr ⟨hleast, hmost, rfl⟩)
  · rintro (⟨hleast, hmost, rfl⟩ | ⟨hleast, hmost, rfl⟩ | ⟨hleast, hmost, rfl⟩)
    · exact .decimal hleast hmost
    · exact .lower hleast hmost
    · exact .upper hleast hmost

/-- The value of a hexadecimal digit is below sixteen. -/
theorem HexDigit.lt (h : HexDigit c v) : v < 16 := by
  rw [hexDigit_iff, Text.digitValue?, Option.filter_eq_some_iff] at h
  simpa using h.2

/-- The plus sign is no hexadecimal digit. -/
theorem not_hexDigit_plus : ¬HexDigit '+' v := by
  rw [hexDigit_iff]
  exact nofun

/-- Nor is the backslash. -/
theorem HexDigit.ne_backslash (h : HexDigit c v) : c ≠ '\\' := by
  rintro rfl
  rw [hexDigit_iff] at h
  exact absurd h nofun

/-- Three characters write a number of base sixteen exactly if they are hexadecimal digits. -/
theorem natural?_three : Text.natural? 16 [b, c, d] = some n ↔
    ∃ q r s, HexDigit b q ∧ HexDigit c r ∧ HexDigit d s ∧ n = q * 256 + r * 16 + s := by
  simp only [Text.natural?, Text.digitsFrom?, hexDigit_iff, Option.bind_eq_some_iff, Option.some.injEq]
  constructor
  · rintro ⟨q, hq, r, hr, s, hs, rfl⟩
    exact ⟨q, r, s, hq, hr, hs, by omega⟩
  · rintro ⟨q, r, s, hq, hr, hs, rfl⟩
    exact ⟨q, hq, r, hr, s, hs, by omega⟩

/-- Four characters write a number of base sixteen exactly if they are hexadecimal digits. -/
theorem natural?_four : Text.natural? 16 [a, b, c, d] = some n ↔
    ∃ p q r s, HexDigit a p ∧ HexDigit b q ∧ HexDigit c r ∧ HexDigit d s ∧ n = p * 4096 + q * 256 + r * 16 + s := by
  simp only [Text.natural?, Text.digitsFrom?, hexDigit_iff, Option.bind_eq_some_iff, Option.some.injEq]
  constructor
  · rintro ⟨p, hp, q, hq, r, hr, s, hs, rfl⟩
    exact ⟨p, q, r, s, hp, hq, hr, hs, by omega⟩
  · rintro ⟨p, q, r, s, hp, hq, hr, hs, rfl⟩
    exact ⟨p, hp, q, hq, r, hr, s, hs, by omega⟩

/-- Four characters are read as a character exactly if they write its number. -/
theorem characterOf?_isSome_iff : (characterOf? [a, b, c, d]).isSome = true ↔ WritesNumber a b c d := by
  by_cases ha : a = '+'
  · subst ha
    have hsigned : (characterOf? ['+', b, c, d]).isSome = true ↔ ∃ n, Text.natural? 16 [b, c, d] = some n ∧ n.isValidChar := by
      simp [characterOf?, Option.isSome_iff_exists, Option.bind_eq_some_iff]
    rw [hsigned]
    constructor
    · rintro ⟨n, hn, -⟩
      obtain ⟨q, r, s, hq, hr, hs, -⟩ := natural?_three.mp hn
      exact .inr ⟨rfl, q, r, s, hq, hr, hs⟩
    · rintro (⟨p, q, r, s, hp, -⟩ | ⟨-, q, r, s, hq, hr, hs⟩)
      · exact absurd hp not_hexDigit_plus
      · -- Three digits write a number that is below those of the surrogates.
        have hvalid : (q * 256 + r * 16 + s).isValidChar := by
          have hq' := hq.lt
          have hr' := hr.lt
          have hs' := hs.lt
          exact .inl (by omega)
        exact ⟨_, natural?_three.mpr ⟨q, r, s, hq, hr, hs, rfl⟩, hvalid⟩
  · have hplain : (characterOf? [a, b, c, d]).isSome = true ↔ ∃ n, Text.natural? 16 [a, b, c, d] = some n ∧ n.isValidChar := by
      simp [characterOf?, Option.isSome_iff_exists, Option.bind_eq_some_iff, ha]
    rw [hplain]
    constructor
    · rintro ⟨n, hn, hvalid⟩
      obtain ⟨p, q, r, s, hp, hq, hr, hs, rfl⟩ := natural?_four.mp hn
      exact .inl ⟨p, q, r, s, hp, hq, hr, hs, hvalid⟩
    · rintro (⟨p, q, r, s, hp, hq, hr, hs, hvalid⟩ | ⟨hplus, -⟩)
      · exact ⟨_, natural?_four.mpr ⟨p, q, r, s, hp, hq, hr, hs, rfl⟩, hvalid⟩
      · exact absurd hplus ha

end Numbers

/-! ## Parts -/

/-- Each backslash in a text that none before it escapes, with the letter `u` behind it, is followed by four characters of a kind. -/
def EscapesHold (kind : Char → Char → Char → Char → Prop) (part : List Char) : Prop :=
  ∀ before behind, part = before ++ '\\' :: 'u' :: behind → backslashes before % 2 = 0 →
    ∃ a b c d rest, behind = a :: b :: c :: d :: rest ∧ kind a b c d

section Parts

variable {kind : Char → Char → Char → Char → Prop} {c : Char} {part rest : List Char}

/-- A text without characters has no escapes. -/
theorem escapesHold_nil : EscapesHold kind [] := by
  intro before behind h
  simp at h

/-- A backslash at the end escapes nothing. -/
theorem escapesHold_backslash : EscapesHold kind ['\\'] := by
  intro before behind h
  have hlength := congrArg List.length h
  simp only [List.length_append, List.length_cons, List.length_nil] at hlength
  omega

/-- Any other character changes nothing. -/
theorem escapesHold_cons (hc : c ≠ '\\') : EscapesHold kind (c :: rest) ↔ EscapesHold kind rest := by
  have hsame (before : List Char) : backslashes (c :: before) % 2 = 0 ↔ backslashes before % 2 = 0 := by
    rw [← isContinued_eq_false_iff, ← isContinued_eq_false_iff, ← List.singleton_append,
      isContinued_append (isContinued_singleton hc)]
  constructor
  · intro h before behind hrest hbefore
    exact h (c :: before) behind (by rw [hrest, List.cons_append]) ((hsame before).mpr hbefore)
  · intro h before behind hpart hbefore
    cases before with
    | nil =>
      cases hpart
      exact absurd rfl hc
    | cons first before =>
      cases hpart
      exact h before behind rfl ((hsame before).mp hbefore)

/-- A backslash that is not escaped escapes the character behind it; if this is the letter `u`, the characters behind it count. The second
one of two backslashes is escaped. -/
theorem escapesHold_escape : EscapesHold kind ('\\' :: c :: rest) ↔
    (c = 'u' → ∃ p q r s more, rest = p :: q :: r :: s :: more ∧ kind p q r s) ∧ EscapesHold kind rest := by
  have hsame (before : List Char) : backslashes ('\\' :: c :: before) % 2 = 0 ↔ backslashes before % 2 = 0 := by
    have hsplit : '\\' :: c :: before = ['\\', c] ++ before := rfl
    rw [← isContinued_eq_false_iff, ← isContinued_eq_false_iff, hsplit, isContinued_append isContinued_escaped]
  constructor
  · intro h
    refine ⟨?_, fun before behind hrest hbefore => ?_⟩
    · rintro rfl
      exact h [] rest rfl rfl
    · exact h ('\\' :: c :: before) behind (by rw [hrest]; rfl) ((hsame before).mpr hbefore)
  · rintro ⟨hfirst, hrest⟩ before behind hpart hbefore
    match before with
    | [] =>
      cases hpart
      exact hfirst rfl
    | [single] =>
      cases hpart
      exact absurd hbefore (by decide)
    | _ :: _ :: before =>
      cases hpart
      exact hrest before behind rfl ((hsame before).mp hbefore)

/-- Behind the four characters of a number the escapes are those of the rest. -/
theorem escapesHold_number {p q r s : Char} (h : WritesNumber p q r s) :
    EscapesHold kind (p :: q :: r :: s :: rest) ↔ EscapesHold kind rest := by
  have hne : p ≠ '\\' ∧ q ≠ '\\' ∧ r ≠ '\\' ∧ s ≠ '\\' := by
    rcases h with ⟨_, _, _, _, hp, hq, hr, hs, -⟩ | ⟨rfl, _, _, _, hq, hr, hs⟩
    · exact ⟨hp.ne_backslash, hq.ne_backslash, hr.ne_backslash, hs.ne_backslash⟩
    · exact ⟨by decide, hq.ne_backslash, hr.ne_backslash, hs.ne_backslash⟩
  obtain ⟨hp, hq, hr, hs⟩ := hne
  rw [escapesHold_cons hp, escapesHold_cons hq, escapesHold_cons hr, escapesHold_cons hs]

/-- A part is read exactly if each of its escapes writes the number of a character. -/
theorem unescape?_isSome_iff : (unescape? part).isSome = true ↔ EscapesHold WritesNumber part := by
  fun_induction unescape? part with
  | case1 => exact iff_of_true rfl escapesHold_nil
  | case2 => exact iff_of_true rfl escapesHold_backslash
  | case3 p q r s rest ih =>
    have hread : (do let character ← characterOf? [p, q, r, s]; return character :: (← unescape? rest)).isSome = true ↔
        WritesNumber p q r s ∧ EscapesHold WritesNumber rest := by
      rw [← characterOf?_isSome_iff, ← ih]
      cases characterOf? [p, q, r, s] <;> cases unescape? rest <;> simp
    rw [hread, escapesHold_escape]
    constructor
    · rintro ⟨hnumber, hrest⟩
      exact ⟨fun _ => ⟨p, q, r, s, rest, rfl, hnumber⟩, (escapesHold_number hnumber).mpr hrest⟩
    · rintro ⟨hfirst, hbehind⟩
      obtain ⟨_, _, _, _, _, hsame, hnumber⟩ := hfirst rfl
      cases hsame
      exact ⟨hnumber, (escapesHold_number hnumber).mp hbehind⟩
  | case4 tail hshort =>
    refine iff_of_false Bool.false_ne_true fun h => ?_
    obtain ⟨p, q, r, s, more, htail, -⟩ := (escapesHold_escape.mp h).1 rfl
    exact hshort p q r s more htail
  | case5 c rest _ hother ih =>
    have hread : (do return escaped c :: (← unescape? rest) : Option (List Char)).isSome = (unescape? rest).isSome := by
      cases unescape? rest <;> rfl
    rw [hread, ih, escapesHold_escape]
    exact ⟨fun h => ⟨fun hc => absurd hc hother, h⟩, And.right⟩
  | case6 c rest hend _ _ hescape ih =>
    have hread : (do return c :: (← unescape? rest) : Option (List Char)).isSome = (unescape? rest).isSome := by
      cases unescape? rest <;> rfl
    have hc : c ≠ '\\' := by
      intro hc
      cases rest with
      | nil => exact hend hc rfl
      | cons next rest => exact hescape next rest hc rfl
    rw [hread, ih, escapesHold_cons hc]

end Parts

/-! ## Logical lines -/

namespace LogicalLine

/-- A logical line that begins on one of the lines of a text, which is counted from one. -/
def BelongsTo (line : LogicalLine) (text : String) : Prop :=
  Begins false 1 (Text.lines text.toList) line

/-- The escapes in both parts of a logical line are followed by characters of a kind. -/
def EscapesHold (kind : Char → Char → Char → Char → Prop) (line : LogicalLine) : Prop :=
  Properties.EscapesHold kind (keyPart line.text) ∧ Properties.EscapesHold kind (valuePart line.text)

variable {line : LogicalLine} {error : Error}

/-- A logical line has an entry exactly if its escapes write numbers of characters, and otherwise the error names it. -/
theorem entry_cases (line : LogicalLine) :
    (line.EscapesHold WritesNumber ∧ ∃ entry, line.entry = .ok entry) ∨
      ¬line.EscapesHold WritesNumber ∧ line.entry = .error (.malformedUnicodeEscape line.number) := by
  rw [EscapesHold, ← unescape?_isSome_iff, ← unescape?_isSome_iff, entry_eq]
  cases unescape? (keyPart line.text) with
  | none => exact .inr ⟨by simp, rfl⟩
  | some key =>
    cases unescape? (valuePart line.text) with
    | none => exact .inr ⟨by simp, rfl⟩
    | some value => exact .inl ⟨⟨rfl, rfl⟩, _, rfl⟩

/-- A line has an entry exactly if all of its escapes hold. -/
theorem exists_entry_iff : (∃ entry, line.entry = .ok entry) ↔ line.EscapesHold WritesNumber := by
  rcases line.entry_cases with ⟨hholds, hentry⟩ | ⟨hbroken, herror⟩
  · exact iff_of_true hentry hholds
  · rw [herror]
    exact iff_of_false (fun ⟨_, h⟩ => nomatch h) hbroken

/-- A line whose escapes do not all hold has an error instead, which names the line. -/
theorem entry_eq_error_iff :
    line.entry = .error error ↔ ¬line.EscapesHold WritesNumber ∧ error = .malformedUnicodeEscape line.number := by
  rcases line.entry_cases with ⟨hholds, entry, hentry⟩ | ⟨hbroken, herror⟩
  · rw [hentry]
    exact iff_of_false nofun fun h => h.1 hholds
  · rw [herror, Except.error.injEq]
    exact ⟨fun h => ⟨hbroken, h.symm⟩, fun h => h.2.symm⟩

end LogicalLine

/-! ## Texts -/

section Texts

variable {text : String} {error : Error}

/-- A document has entries exactly if the escapes of all of its lines hold. -/
theorem exists_parse_ok_iff : (∃ entries, parse text = .ok entries) ↔
    ∀ line : LogicalLine, line.BelongsTo text → line.EscapesHold WritesNumber := by
  rw [parse, exists_mapM_ok_iff]
  exact forall_congr' fun line => imp_congr mem_logicalLines_iff LogicalLine.exists_entry_iff

/-- An error names a logical line that cannot be read, and all before it can be. -/
theorem exists_of_parse_error (h : parse text = .error error) : ∃ line : LogicalLine, line.BelongsTo text ∧
    ¬line.EscapesHold WritesNumber ∧
    (∀ other : LogicalLine, other.BelongsTo text → other.number < line.number → other.EscapesHold WritesNumber) ∧
    error = .malformedUnicodeEscape line.number := by
  obtain ⟨before, line, after, answers, hlines, hbefore, hline⟩ := exists_of_mapM_error h
  have hmem : line ∈ logicalLines none 1 (Text.lines text.toList) := by simp [hlines]
  have hordered : (before ++ line :: after).Pairwise (·.number < ·.number) := by
    rw [← hlines]
    exact pairwise_logicalLines (by simp)
  obtain ⟨-, hafter, -⟩ := List.pairwise_append.mp hordered
  obtain ⟨hbroken, herror⟩ := LogicalLine.entry_eq_error_iff.mp hline
  refine ⟨line, mem_logicalLines_iff.mp hmem, hbroken, fun other hother hless => ?_, herror⟩
  have hmem' : other ∈ before ++ line :: after := by
    rw [← hlines]
    exact mem_logicalLines_iff.mpr hother
  rcases List.mem_append.mp hmem' with hin | hin
  · exact LogicalLine.exists_entry_iff.mp (exists_mapM_ok_iff.mp ⟨answers, hbefore⟩ other hin)
  · rcases List.mem_cons.mp hin with rfl | hin
    · exact absurd hless (Nat.lt_irrefl _)
    · have hgreater := (List.pairwise_cons.mp hafter).1 other hin
      omega

/-- A text is read exactly if in both parts of each of its logical lines every backslash that is not escaped, with the letter `u` behind it,
is followed by the number of a character. Otherwise the error names the first line of which this does not hold, by the number of the
line of the text that it begins on. -/
theorem outcome_of_escapes (text : String) :
    ((∃ entries, parse text = .ok entries) ↔
        ∀ line : LogicalLine, line.BelongsTo text → line.EscapesHold WritesNumber) ∧
      ∀ error, parse text = .error error ↔ ∃ line : LogicalLine, line.BelongsTo text ∧ ¬line.EscapesHold WritesNumber ∧
        (∀ other : LogicalLine, other.BelongsTo text → other.number < line.number → other.EscapesHold WritesNumber) ∧
        error = .malformedUnicodeEscape line.number := by
  refine ⟨exists_parse_ok_iff, fun error => ⟨exists_of_parse_error, ?_⟩⟩
  rintro ⟨line, hline, hbroken, hfirst, rfl⟩
  cases hparse : parse text with
  | ok entries => exact absurd (exists_parse_ok_iff.mp ⟨entries, hparse⟩ line hline) hbroken
  | error error =>
    obtain ⟨other, hother, hbroken', hfirst', rfl⟩ := exists_of_parse_error hparse
    have hnotLess : ¬other.number < line.number := fun hless => hbroken' (hfirst other hother hless)
    have hnotGreater : ¬line.number < other.number := fun hless => hbroken (hfirst' line hline hless)
    have hsame : other.number = line.number := by omega
    rw [hsame]

end Texts

/-- A plus sign is read as one of the four digits. -/
theorem signed_number_read :
    parse "a=\\u+041" = .ok [("a", "A")] ∧
      ¬∀ line : LogicalLine, line.BelongsTo "a=\\u+041" → line.EscapesHold WritesCharacter := by
  have hparse : parse "a=\\u+041" = .ok [("a", "A")] := by decide +kernel
  have hline : LogicalLine.BelongsTo ⟨1, "a=\\u+041".toList⟩ "a=\\u+041" := mem_logicalLines_iff.mp (by decide +kernel)
  refine ⟨hparse, fun h => ?_⟩
  obtain ⟨-, hvalue⟩ := h _ hline
  obtain ⟨a, b, c, d, rest, hdigits, p, q, r, s, hp, -⟩ := hvalue [] "+041".toList (by decide +kernel) rfl
  have hplus : '+' = a := by
    have hhead := congrArg List.head? hdigits
    simpa using hhead
  rw [← hplus] at hp
  exact not_hexDigit_plus hp

end Properties

end Ignition
