import Ignition.Config.Randomness
import Ignition.Proofs.Config.Options
import Ignition.Proofs.Text.Numerals

/-!
# Which keys have random values

What stands behind `random.` decides of which kind a value is, and whether there is one. A range is read from a text exactly if the text
names one in brackets (`NamesRange`, `range?_eq_some_iff`), and it is never empty. Of the keys that begin with `int` or `long`, those
have a value that end there or go on with such a range; the others have none, also where no bracket opens
(`integer_without_value`). Every other key has a value, an identifier for `uuid` and digits for the rest. What the value of a key may be
is said by `Answers`, and it is so for every key and every number drawn (`value_of_key`).
-/

namespace Ignition.RandomRequest

variable {text inner front back : List Char} {least bound n : Int}

/-! ## Ranges -/

/-- A text is another one in brackets, round or square. -/
def Bracketed (inner text : List Char) : Prop :=
  text = '(' :: (inner ++ [')']) ∨ text = '[' :: (inner ++ [']'])

/-- A text writes a 64-bit integer, perhaps with white space around it. -/
def WritesPadded (text : List Char) (n : Int) : Prop :=
  (∃ word, Text.WritesInteger word n ∧ Text.Padded word text) ∧ Text.leastInt64 ≤ n ∧ n ≤ Text.greatestInt64

/-- A text writes a bound, above zero, or a least integer and a bound with a comma between them. -/
inductive WritesBounds : List Char → Int → Int → Prop where
  | bound {text : List Char} {bound : Int} : WritesPadded text bound → WritesBounds text 0 bound
  | both {front back : List Char} {least bound : Int} :
      WritesPadded front least → WritesPadded back bound → WritesBounds (front ++ ',' :: back) least bound

/-- A text names a range that is not empty. -/
def NamesRange (text : List Char) (least bound : Int) : Prop :=
  (∃ inner, Bracketed inner text ∧ WritesBounds inner least bound) ∧ least < bound

/-- A text stands between brackets if these are its ends. -/
theorem between?_eq_some_iff {opening closing whole between : String} :
    between? opening closing whole = some between ↔ whole = opening ++ (between ++ closing) := by
  simp only [between?, Option.bind_eq_bind, Option.bind_eq_some_iff, Text.dropStart?_eq_some, Text.dropEnd?_eq_some]
  constructor
  · rintro ⟨rest, rfl, rfl⟩
    rfl
  · rintro rfl
    exact ⟨_, rfl, rfl⟩

/-- So it does character by character. -/
theorem between?_ofList_eq_some_iff {opening closing between : String} :
    between? opening closing (String.ofList text) = some between ↔
      text = opening.toList ++ (between.toList ++ closing.toList) := by
  rw [between?_eq_some_iff, ← String.toList_inj, String.toList_ofList, String.toList_append, String.toList_append]

/-- What is found in brackets of either kind stands in them. -/
theorem or_between?_eq_some_iff {between : String} :
    (between? "(" ")" (String.ofList text)).or (between? "[" "]" (String.ofList text)) = some between ↔
      Bracketed between.toList text := by
  rw [Option.or_eq_some_iff, between?_ofList_eq_some_iff, between?_ofList_eq_some_iff]
  refine or_congr_right ⟨fun h => h.2, fun h => ⟨?_, h⟩⟩
  rw [Option.eq_none_iff_forall_ne_some]
  intro other hother
  rw [between?_ofList_eq_some_iff, h] at hother
  cases hother

/-- A padded integer is read from a text exactly if the text writes it. -/
theorem paddedInteger?_eq_some_iff : paddedInteger? text = some n ↔ WritesPadded text n :=
  Text.integerIn?_trim_eq_some_iff

/-- There is no comma in an integer. -/
theorem WritesPadded.comma_notMem (h : WritesPadded text n) : ',' ∉ text := by
  obtain ⟨⟨word, hword, left, right, rfl, hleft, hright⟩, -⟩ := h
  intro hmem
  rcases List.mem_append.mp hmem with hmem | hmem
  · rcases List.mem_append.mp hmem with hmem | hmem
    · exact nomatch hleft _ hmem
    · exact absurd (hword.mem _ hmem) (by decide)
  · exact nomatch hright _ hmem

/-- The least value and the bound that a text writes. -/
def bounds? (inner : List Char) : Option (Int × Int) :=
  match Text.cut ',' inner with
  | some (front, back) => do pure (← paddedInteger? front, ← paddedInteger? back)
  | none => do pure (0, ← paddedInteger? inner)

/-- A range is what is written in brackets, if it is not empty. -/
theorem range?_eq (text : List Char) : range? text =
    (((between? "(" ")" (String.ofList text)).or (between? "[" "]" (String.ofList text))).bind
      fun inner => bounds? inner.toList).filter fun bounds => bounds.1 < bounds.2 := by
  rw [range?]
  rcases (between? "(" ")" (String.ofList text)).or (between? "[" "]" (String.ofList text)) with _ | inner
  · rfl
  · simp only [Option.bind_eq_bind, Option.bind_some, bounds?]
    rcases Text.cut ',' inner.toList with _ | ⟨front, back⟩ <;> dsimp only
    · rcases paddedInteger? inner.toList with _ | bound
      · rfl
      · simp [Option.filter_some]
    · rcases paddedInteger? front with _ | least
      · rfl
      · rcases paddedInteger? back with _ | bound
        · rfl
        · simp [Option.filter_some]

/-- A comma tells whether there is a least value. -/
theorem bounds?_eq_some_iff : bounds? inner = some (least, bound) ↔ WritesBounds inner least bound := by
  constructor
  · intro h
    rw [bounds?] at h
    split at h
    next front back hcut =>
      obtain ⟨rfl, -⟩ := Text.eq_of_cut hcut
      simp only [Option.bind_eq_bind, Option.bind_eq_some_iff, paddedInteger?_eq_some_iff] at h
      obtain ⟨_, hleast, _, hbound, h⟩ := h
      obtain ⟨rfl, rfl⟩ := Prod.mk.inj (Option.some.inj h)
      exact .both hleast hbound
    next =>
      simp only [Option.bind_eq_bind, Option.bind_eq_some_iff, paddedInteger?_eq_some_iff] at h
      obtain ⟨_, hbound, h⟩ := h
      obtain ⟨rfl, rfl⟩ := Prod.mk.inj (Option.some.inj h)
      exact .bound hbound
  · rintro (hbound | ⟨hleast, hbound⟩)
    · rw [bounds?, Text.cut_eq_none_iff.mpr hbound.comma_notMem]
      simp only [paddedInteger?_eq_some_iff.mpr hbound]
      rfl
    · rw [bounds?, Text.cut_append hleast.comma_notMem]
      simp only [paddedInteger?_eq_some_iff.mpr hleast, paddedInteger?_eq_some_iff.mpr hbound]
      rfl

/-- A range is read from a text exactly if the text names it. -/
theorem range?_eq_some_iff : range? text = some (least, bound) ↔ NamesRange text least bound := by
  rw [range?_eq, Option.filter_eq_some_iff, Option.bind_eq_some_iff, decide_eq_true_eq, NamesRange]
  simp only [or_between?_eq_some_iff, bounds?_eq_some_iff]
  refine and_congr_left fun _ => ⟨fun ⟨inner, h⟩ => ⟨inner.toList, h⟩, fun ⟨inner, h⟩ => ⟨String.ofList inner, ?_⟩⟩
  rwa [String.toList_ofList]

/-! ## Draws -/

/-- An integer is drawn from its range, which has the bound as its first value too many. -/
theorem draw_integer (drawn : Nat) (h : least < bound) :
    ∃ n, draw drawn (.integer least bound) = Text.signedDecimal n ∧ least ≤ n ∧ n < bound := by
  have hnonneg := Int.emod_nonneg (Int.ofNat drawn) (b := bound - least) (by omega)
  have hlt := Int.emod_lt_of_pos (Int.ofNat drawn) (b := bound - least) (by omega)
  exact ⟨_, rfl, by omega, by omega⟩

/-- A text consists of so many hexadecimal digits. -/
def HexWord (width : Nat) (text : List Char) : Prop :=
  text.length = width ∧ ∀ c ∈ text, Text.IsHexLower c

/-- A number of fixed width is a word of hexadecimal digits. -/
theorem hexWord_fixedHex {width : Nat} (hwidth : 0 < width) (n : Nat) : HexWord width (Text.fixedHex width n).toList :=
  ⟨Text.length_fixedHex hwidth n, Text.isHexLower_of_mem_fixedHex width n⟩

/-- A text is an identifier of the random kind: digits in groups of 8, 4, 4, 4 and 12, the version digit 4 ahead of the third group
and a digit for the variant ahead of the fourth. -/
def RandomUuid (text : List Char) : Prop :=
  ∃ low middle high clock node : List Char,
    text = low ++ ['-'] ++ middle ++ ['-', '4'] ++ high ++ ['-'] ++ clock ++ ['-'] ++ node ∧
    HexWord 8 low ∧ HexWord 4 middle ∧ HexWord 3 high ∧ HexWord 4 clock ∧ HexWord 12 node ∧
    ∃ variant ∈ "89ab".toList, clock.head? = some variant

/-- With the highest of the 64 bits set and the next one clear, the first of the digits shows the variant. -/
theorem head_fixedHex_variant {n : Nat} (hleast : Nat.pow 2 63 ≤ n) (hmost : n < Nat.pow 2 63 + Nat.pow 2 62) :
    ∃ variant ∈ "89ab".toList, (Text.fixedHex 16 n).toList.head? = some variant := by
  simp only [Nat.pow_eq, Nat.reducePow] at hleast hmost
  have hle : (Nat.toDigits 16 n).length ≤ 16 := (Nat.length_toDigits_le_iff (by decide) (by decide)).mpr (by omega)
  have hgt : ¬ (Nat.toDigits 16 n).length ≤ 15 := by
    rw [Nat.length_toDigits_le_iff (by decide) (by decide)]
    omega
  have hlength : (Nat.toDigits 16 n).length = 16 := by omega
  have hmod : n % Nat.pow 16 16 = n := Nat.mod_eq_of_lt (by simp only [Nat.pow_eq, Nat.reducePow]; omega)
  have hhead := Text.head_toDigits (show 1 < 16 by decide) n
  rw [hlength] at hhead
  have hall : ∀ d < 12, 8 ≤ d → Nat.digitChar d ∈ "89ab".toList := by decide
  refine ⟨_, hall (n / Nat.pow 16 15) ?_ ?_, ?_⟩
  · simp only [Nat.pow_eq, Nat.reducePow]
    omega
  · simp only [Nat.pow_eq, Nat.reducePow]
    omega
  · rw [Text.fixedHex, String.toList_ofList, hmod, hlength]
    exact hhead

/-- An identifier has the digits and the hyphens of its version, whatever is drawn. -/
theorem randomUuid_uuidText (drawn : Nat) : RandomUuid (uuidText drawn).toList := by
  generalize htail : Text.fixedHex 16 (Nat.pow 2 63 + drawn % Nat.pow 2 62) = tail
  obtain ⟨hlength, hdigits⟩ : HexWord 16 tail.toList := htail ▸ hexWord_fixedHex (by decide) _
  obtain ⟨variant, hvariant, hhead⟩ : ∃ variant ∈ "89ab".toList, tail.toList.head? = some variant :=
    htail ▸ head_fixedHex_variant (Nat.le_add_right ..) (Nat.add_lt_add_left (Nat.mod_lt _ (by decide)) _)
  have hclock : HexWord 4 (tail.toList.take 4) :=
    ⟨by rw [List.length_take, hlength]; rfl, fun c hc => hdigits c (List.mem_of_mem_take hc)⟩
  have hnode : HexWord 12 (tail.toList.drop 4) :=
    ⟨by rw [List.length_drop, hlength], fun c hc => hdigits c (List.mem_of_mem_drop hc)⟩
  have hfirst : (tail.toList.take 4).head? = some variant := by rw [List.head?_take, if_neg (by decide), hhead]
  have hgroups : ∃ low middle high, (uuidText drawn).toList = (Text.fixedHex 8 low).toList ++ ['-'] ++
      (Text.fixedHex 4 middle).toList ++ ['-', '4'] ++ (Text.fixedHex 3 high).toList ++ ['-'] ++ tail.toList.take 4 ++ ['-'] ++
      tail.toList.drop 4 := by
    rw [uuidText, htail]
    simp only [String.toList_append, String.toList_ofList]
    exact ⟨_, _, _, rfl⟩
  obtain ⟨low, middle, high, htext⟩ := hgroups
  exact ⟨_, _, _, _, _, htext, hexWord_fixedHex (by decide) low, hexWord_fixedHex (by decide) middle,
    hexWord_fixedHex (by decide) high, hclock, hnode, variant, hvariant, hfirst⟩

/-! ## Keys -/

/-- A word asks for integers of one width, from the least to the greatest one. -/
inductive IntegerWord : List Char → Int → Int → Prop where
  | int : IntegerWord "int".toList Text.leastInt32 Text.greatestInt32
  | long : IntegerWord "long".toList Text.leastInt64 Text.greatestInt64

/-- What may be the value of a key that goes on with the given kind behind `random.`; `none` if there is none. -/
inductive Answers : List Char → Option String → Prop where
  /-- The word alone stands for any integer of its width. -/
  | whole {word : List Char} {smallest greatest n : Int} :
      IntegerWord word smallest greatest → smallest ≤ n → n ≤ greatest → Answers word (some (Text.signedDecimal n))
  /-- With a range of its width behind it, the word stands for an integer in the range. -/
  | ranged {word text : List Char} {smallest greatest least bound n : Int} :
      IntegerWord word smallest greatest → NamesRange text least bound → smallest ≤ least → bound ≤ greatest →
        least ≤ n → n < bound → Answers (word ++ text) (some (Text.signedDecimal n))
  /-- With anything else behind it, the word stands for nothing. -/
  | unranged {word text : List Char} {smallest greatest : Int} :
      IntegerWord word smallest greatest → text ≠ [] →
        (∀ least bound, NamesRange text least bound → ¬ (smallest ≤ least ∧ bound ≤ greatest)) → Answers (word ++ text) none
  | uuid {text : String} : RandomUuid text.toList → Answers "uuid".toList (some text)
  /-- Every kind that begins with neither of the words stands for digits. -/
  | digits {kind : List Char} {text : String} :
      (∀ word smallest greatest, IntegerWord word smallest greatest → ¬ word <+: kind) → kind ≠ "uuid".toList →
        HexWord 32 text.toList → Answers kind (some text)

/-- The bounds of a range are integers of 64 bits. -/
theorem NamesRange.fits {text : List Char} {least bound : Int} (h : NamesRange text least bound) :
    Text.leastInt64 ≤ least ∧ bound ≤ Text.greatestInt64 := by
  obtain ⟨⟨inner, -, hwritten⟩, -⟩ := h
  cases hwritten with
  | bound hbound => exact ⟨by decide, hbound.2.2⟩
  | both hleast hbound => exact ⟨hleast.2.1, hbound.2.2⟩

/-- Of a range that is not empty, the least value and the bound are integers of 32 bits if the one is not too small and the other not
too great. -/
theorem fitsInt32_bounds (h : least < bound) :
    (fitsInt32 least && fitsInt32 bound) = true ↔ Text.leastInt32 ≤ least ∧ bound ≤ Text.greatestInt32 := by
  simp only [fitsInt32, Bool.and_eq_true, decide_eq_true_eq]
  omega

/-- There is an answer to a word with a text behind it, given that the text is taken as a range exactly if it names one of the
width. -/
theorem answers_range {word text : List Char} {smallest greatest : Int} {range : Option (Int × Int)}
    (hword : IntegerWord word smallest greatest) (htext : text ≠ [])
    (hrange : ∀ least bound, range = some (least, bound) ↔ NamesRange text least bound ∧ smallest ≤ least ∧ bound ≤ greatest)
    (drawn : Nat) : Answers (word ++ text) ((range.map fun (least, bound) => integer least bound).map (draw drawn)) := by
  rcases range with _ | ⟨least, bound⟩
  · exact .unranged hword htext fun least bound hnames hfits => nomatch (hrange least bound).mpr ⟨hnames, hfits⟩
  · obtain ⟨hnames, hleast, hbound⟩ := (hrange least bound).mp rfl
    obtain ⟨n, hdraw, hn, hlt⟩ := draw_integer drawn hnames.2
    simp only [Option.map_some, hdraw]
    exact .ranged hword hnames hleast hbound hn hlt

/-- A word alone is drawn from all integers of its width. -/
theorem answers_whole {word : List Char} {smallest greatest : Int} (hword : IntegerWord word smallest greatest) (drawn : Nat) :
    Answers word ((some (integer smallest (greatest + 1))).map (draw drawn)) := by
  have hlt : smallest < greatest + 1 := by cases hword <;> decide
  obtain ⟨n, hdraw, hn, hbound⟩ := draw_integer drawn hlt
  rw [Option.map_some, hdraw]
  exact .whole hword hn (Int.lt_add_one_iff.mp hbound)

/-- The answer to a kind of random value, whatever is drawn. -/
theorem answers_of_value? (drawn : Nat) {key : String} {kind : List Char} (h : key.toList = "random.".toList ++ kind) :
    Answers kind (value? drawn key) := by
  have hstart : "random.".toList.isPrefixOf? key.toList = some kind := List.isPrefixOf?_eq_some_iff_append_eq.mpr h.symm
  rw [value?]
  fun_cases ofKey? key with
  | case1 hnone => exact nomatch hstart.symm.trans hnone
  | case2 hkind =>
    cases Option.some.inj (hstart.symm.trans hkind)
    exact answers_whole .int _
  | case3 hkind =>
    cases Option.some.inj (hstart.symm.trans hkind)
    exact answers_whole .long _
  | case4 hkind =>
    cases Option.some.inj (hstart.symm.trans hkind)
    exact .uuid (randomUuid_uuidText _)
  | case5 kind hkind hint hlong huuid text htext =>
    cases Option.some.inj (hstart.symm.trans hkind)
    rw [List.isPrefixOf?_eq_some_iff_append_eq] at htext
    subst htext
    refine answers_range .int (fun hnil => hint (by rw [hnil, List.append_nil])) (fun least bound => ?_) _
    rw [Option.filter_eq_some_iff, range?_eq_some_iff]
    exact and_congr_right fun hnames => fitsInt32_bounds hnames.2
  | case6 kind hkind hint hlong huuid hnone text htext =>
    cases Option.some.inj (hstart.symm.trans hkind)
    rw [List.isPrefixOf?_eq_some_iff_append_eq] at htext
    subst htext
    refine answers_range .long (fun hnil => hlong (by rw [hnil, List.append_nil])) (fun least bound => ?_) _
    rw [range?_eq_some_iff]
    exact (and_iff_left_of_imp NamesRange.fits).symm
  | case7 kind hkind hint hlong huuid hnoInt hnoLong =>
    cases Option.some.inj (hstart.symm.trans hkind)
    refine .digits (fun word smallest greatest hword hbegins => ?_) huuid (hexWord_fixedHex (by decide) _)
    obtain ⟨text, htext⟩ := hbegins
    have hsome := List.isPrefixOf?_eq_some_iff_append_eq.mpr htext
    cases hword with
    | int => exact nomatch hnoInt.symm.trans hsome
    | long => exact nomatch hnoLong.symm.trans hsome

/-- No key asks for an integer from an empty range. -/
theorem lt_of_ofKey? {key : String} (h : ofKey? key = some (integer least bound)) : least < bound := by
  revert h
  fun_cases ofKey? key with
  | case1 => exact nofun
  | case2 =>
    intro h
    cases h
    decide
  | case3 =>
    intro h
    cases h
    decide
  | case4 => exact nofun
  | case5 kind hkind hint hlong huuid text htext =>
    intro h
    simp only [Option.map_eq_some_iff, Option.filter_eq_some_iff] at h
    obtain ⟨⟨least', bound'⟩, ⟨hrange, -⟩, hrequest⟩ := h
    cases hrequest
    exact (range?_eq_some_iff.mp hrange).2
  | case6 kind hkind hint hlong huuid hnone text htext =>
    intro h
    simp only [Option.map_eq_some_iff] at h
    obtain ⟨⟨least', bound'⟩, hrange, hrequest⟩ := h
    cases hrequest
    exact (range?_eq_some_iff.mp hrange).2
  | case7 => exact nofun

/-- A key that does not begin with `random.` has no value. What stands behind that decides what the value of every other key may be and
whether there is one, and no integer is drawn from an empty range. -/
theorem value_of_key (drawn : Nat) (key : String) :
    ((∃ kind, key.toList = "random.".toList ++ kind ∧ Answers kind (value? drawn key)) ∨
      (¬ "random.".toList <+: key.toList ∧ value? drawn key = none)) ∧
    ∀ least bound, ofKey? key = some (integer least bound) → least < bound := by
  refine ⟨?_, fun _ _ => lt_of_ofKey?⟩
  by_cases hstart : "random.".toList <+: key.toList
  · obtain ⟨kind, hkind⟩ := hstart
    exact .inl ⟨kind, hkind.symm, answers_of_value? drawn hkind.symm⟩
  · have hnone : "random.".toList.isPrefixOf? key.toList = none := by
      rw [Option.eq_none_iff_forall_ne_some]
      exact fun kind hkind => hstart ⟨kind, List.isPrefixOf?_eq_some_iff_append_eq.mp hkind⟩
    exact .inr ⟨hstart, by rw [value?, ofKey?, hnone]; rfl⟩

/-- A key that begins with a word for integers and goes on without a bracket has no value, where a key that is no word for integers, no
such word with a text in brackets and no identifier was to have digits. -/
theorem integer_without_value : ¬ ∀ (drawn : Nat) (key : String) (kind : List Char), key.toList = "random.".toList ++ kind →
    kind ∉ ["int".toList, "long".toList, "uuid".toList] →
    (∀ inner text, Bracketed inner text → kind ≠ "int".toList ++ text ∧ kind ≠ "long".toList ++ text) →
    ∃ digits, value? drawn key = some digits ∧ HexWord 32 digits.toList := by
  intro hdigits
  obtain ⟨digits, hvalue, -⟩ := hdigits 0 "random.integer" "integer".toList rfl (by decide) fun inner text hbracketed => by
    rcases hbracketed with rfl | rfl <;> exact ⟨nofun, nofun⟩
  have hnone : value? 0 "random.integer" = none := by decide
  exact nomatch hnone.symm.trans hvalue

end Ignition.RandomRequest
