import Ignition.Proofs.Text.Trimming
import Ignition.Text.Integer
import Mathlib.Data.List.Basic

/-!
# Integers in text

What a text has to be for an integer to be read from it (`WritesInteger`): digits, perhaps behind a sign. No digit and no sign is white
space, so with white space around it such a text is read after trimming. The other way round, a number is written in a fixed width as
exactly that many hexadecimal digits (`length_fixedHex`, `isHexLower_of_mem_fixedHex`), and the first of them is the number divided by
the power of 16 for the rest (`head_toDigits`).
-/

namespace Ignition.Text

variable {c : Char} {digits text : List Char} {n value : Nat} {i : Int}

/-! ## Decimal digits -/

/-- Some decimal digits, at least one, write a natural number. -/
def WritesNatural (digits : List Char) (n : Nat) : Prop :=
  digits ≠ [] ∧ (∀ c ∈ digits, c.isDigit = true) ∧ Nat.ofDigitChars 10 digits 0 = n

/-- A text writes an integer: digits with or without a sign in front. -/
inductive WritesInteger : List Char → Int → Prop where
  | unsigned {digits : List Char} {n : Nat} : WritesNatural digits n → WritesInteger digits n
  | plus {digits : List Char} {n : Nat} : WritesNatural digits n → WritesInteger ('+' :: digits) n
  | minus {digits : List Char} {n : Nat} : WritesNatural digits n → WritesInteger ('-' :: digits) (-n)

/-- A decimal digit counts as many as it stands behind zero, and no other character is one: letters stand for more. -/
theorem digitValue?_ten_eq_some_iff : digitValue? 10 c = some value ↔ c.isDigit = true ∧ c.toNat - '0'.toNat = value := by
  have hle {c d : Char} : c ≤ d ↔ c.toNat ≤ d.toNat := Iff.rfl
  simp only [digitValue?, hle, Bool.and_eq_true, decide_eq_true_eq, Option.filter_eq_some_iff, Char.isDigit_iff_toNat,
    Char.reduceToNat]
  split_ifs <;> simp only [Option.some.injEq, false_and, false_iff] <;> omega

/-- Digits are read as the number that they write behind another one. -/
theorem digitsFrom?_eq_some_iff : digitsFrom? 10 value digits = some n ↔
    (∀ c ∈ digits, c.isDigit = true) ∧ Nat.ofDigitChars 10 digits value = n := by
  induction digits generalizing value with
  | nil => simp [digitsFrom?]
  | cons c digits ih =>
    rw [digitsFrom?, Option.bind_eq_some_iff, List.forall_mem_cons, Nat.ofDigitChars_cons, Nat.mul_comm 10]
    simp only [digitValue?_ten_eq_some_iff, ih]
    constructor
    · rintro ⟨_, ⟨hdigit, rfl⟩, hdigits, hvalue⟩
      exact ⟨⟨hdigit, hdigits⟩, hvalue⟩
    · rintro ⟨⟨hdigit, hdigits⟩, hvalue⟩
      exact ⟨_, ⟨hdigit, rfl⟩, hdigits, hvalue⟩

/-- A natural number is read from a text exactly if the text writes it. -/
theorem natural?_eq_some_iff : natural? 10 digits = some n ↔ WritesNatural digits n := by
  cases digits with
  | nil => exact iff_of_false nofun fun h => h.1 rfl
  | cons c digits =>
    rw [natural?, digitsFrom?_eq_some_iff]
    exact ⟨fun h => ⟨List.cons_ne_nil c digits, h⟩, fun h => h.2⟩

/-- Digits begin with no sign. -/
theorem WritesNatural.ne_cons (h : WritesNatural digits n) (hsign : c.isDigit = false) (rest : List Char) : digits ≠ c :: rest := by
  rintro rfl
  exact absurd (h.2.1 c List.mem_cons_self) (Bool.eq_false_iff.mp hsign)

/-- An integer is read from a text exactly if the text writes it. -/
theorem integer?_eq_some_iff : integer? 10 text = some i ↔ WritesInteger text i := by
  constructor
  · intro h
    rw [integer?.eq_def] at h
    split at h
    · obtain ⟨n, hn, rfl⟩ := Option.map_eq_some_iff.mp h
      exact .plus (natural?_eq_some_iff.mp hn)
    · obtain ⟨n, hn, rfl⟩ := Option.map_eq_some_iff.mp h
      exact .minus (natural?_eq_some_iff.mp hn)
    · obtain ⟨n, hn, rfl⟩ := Option.map_eq_some_iff.mp h
      exact .unsigned (natural?_eq_some_iff.mp hn)
  · rintro (h | h | h)
    · rw [integer?.eq_3 10 text (fun rest => h.ne_cons rfl rest) (fun rest => h.ne_cons rfl rest), natural?_eq_some_iff.mpr h]
      rfl
    · rw [integer?, natural?_eq_some_iff.mpr h]
      rfl
    · rw [integer?, natural?_eq_some_iff.mpr h]
      rfl

/-- An integer is written with digits and signs. -/
theorem WritesInteger.mem (h : WritesInteger text i) : ∀ c ∈ text, c.isDigit = true ∨ c = '+' ∨ c = '-' := by
  cases h with
  | unsigned h => exact fun c hc => .inl (h.2.1 c hc)
  | plus h => exact List.forall_mem_cons.mpr ⟨.inr (.inl rfl), fun c hc => .inl (h.2.1 c hc)⟩
  | minus h => exact List.forall_mem_cons.mpr ⟨.inr (.inr rfl), fun c hc => .inl (h.2.1 c hc)⟩

/-- No digit and no sign is white space. -/
theorem WritesInteger.not_blank (h : WritesInteger text i) : ∀ c ∈ text, isBlank c = false := by
  intro c hc
  rcases h.mem c hc with hdigit | rfl | rfl
  · have hall : ∀ k < 10, isBlank (Char.ofNat ('0'.toNat + k)) = false := by decide
    obtain ⟨hleast, hmost⟩ := Char.isDigit_iff_toNat.mp hdigit
    have hblank := hall (c.toNat - '0'.toNat) (by simp only [Char.reduceToNat] at hmost ⊢; omega)
    rwa [Nat.add_sub_cancel' hleast, Char.ofNat_toNat] at hblank
  · rfl
  · rfl

/-- An integer with white space around it is read if it lies in the range. -/
theorem integerIn?_trim_eq_some_iff {least greatest : Int} : integerIn? least greatest 10 (trim text) = some i ↔
    (∃ word, WritesInteger word i ∧ Padded word text) ∧ least ≤ i ∧ i ≤ greatest := by
  rw [integerIn?, Option.filter_eq_some_iff, integer?_eq_some_iff, Bool.and_eq_true, decide_eq_true_eq, decide_eq_true_eq]
  refine and_congr_left fun _ => ⟨fun h => ⟨_, h, padded_trim text⟩, fun ⟨word, hword, hpadded⟩ => ?_⟩
  rwa [(trim_eq_iff hword.not_blank).mpr hpadded]

/-! ## Hexadecimal digits -/

/-- A character is a hexadecimal digit in lower case. -/
def IsHexLower (c : Char) : Prop :=
  c ∈ "0123456789abcdef".toList

theorem isHexLower_digitChar {d : Nat} (h : d < 16) : IsHexLower (Nat.digitChar d) := by
  have hall : ∀ d < 16, Nat.digitChar d ∈ "0123456789abcdef".toList := by decide
  exact hall d h

theorem isHexLower_of_mem_toDigits (n : Nat) : ∀ c ∈ Nat.toDigits 16 n, IsHexLower c := by
  induction n using Nat.strong_induction_on with
  | _ n ih =>
    rw [Nat.toDigits_eq_if (by decide)]
    split
    case isTrue hlt => exact fun c hc => List.mem_singleton.mp hc ▸ isHexLower_digitChar hlt
    case isFalse hge =>
      intro c hc
      rcases List.mem_append.mp hc with hrest | hlast
      · exact ih (n / 16) (by omega) c hrest
      · exact List.mem_singleton.mp hlast ▸ isHexLower_digitChar (Nat.mod_lt n (by decide))

variable {width : Nat}

/-- A number is written in a fixed width as so many digits. -/
theorem length_fixedHex (hwidth : 0 < width) (n : Nat) : (fixedHex width n).toList.length = width := by
  have hlength : (Nat.toDigits 16 (n % Nat.pow 16 width)).length ≤ width :=
    (Nat.length_toDigits_le_iff (by decide) hwidth).mpr (Nat.mod_lt n (Nat.pow_pos (by decide)))
  rw [fixedHex, String.toList_ofList, List.length_append, List.length_replicate]
  omega

/-- A number of fixed width is written in small hexadecimal digits. -/
theorem isHexLower_of_mem_fixedHex (width n : Nat) : ∀ c ∈ (fixedHex width n).toList, IsHexLower c := by
  intro c hc
  rw [fixedHex, String.toList_ofList] at hc
  rcases List.mem_append.mp hc with hzero | hdigit
  · rw [List.eq_of_mem_replicate hzero]
    exact isHexLower_digitChar (d := 0) (by decide)
  · exact isHexLower_of_mem_toDigits _ c hdigit

/-- The first digit of a number is the number divided by the power of the base for the other digits. -/
theorem head_toDigits {base : Nat} (hbase : 1 < base) (n : Nat) :
    (Nat.toDigits base n).head? = some (Nat.digitChar (n / Nat.pow base ((Nat.toDigits base n).length - 1))) := by
  induction n using Nat.strong_induction_on with
  | _ n ih =>
    by_cases hlt : n < base
    · rw [Nat.toDigits_of_lt_base hlt]
      simp
    · have hfront := ih (n / base) (Nat.div_lt_self (by omega) hbase)
      generalize hrest : Nat.toDigits base (n / base) = rest at hfront
      have hlength : rest.length - 1 + 1 = rest.length := Nat.sub_add_cancel (hrest ▸ Nat.length_toDigits_pos)
      have hpow : base * Nat.pow base (rest.length - 1) = Nat.pow base rest.length :=
        (Nat.mul_comm ..).trans (congrArg (Nat.pow base) hlength)
      rw [Nat.toDigits_eq_if hbase, if_neg hlt, hrest, List.head?_append, hfront, Option.some_or, List.length_append,
        List.length_singleton, Nat.add_sub_cancel, Nat.div_div_eq_div_mul, hpow]

end Ignition.Text
