import Mathlib.Tactic.Common
import Comfort.Json.Printer
import Comfort.Json.Reader

/-!
Numbers and strings are read back as they were written.

A whole number is read back from its digits, where what follows them does not go on the number.  A
string is read back from its escaped characters: escaping hides every quote and every backslash, so
the string ends at its own closing quote, and each escape names the character it stands for.
-/

namespace Comfort
namespace Json

/-! ## Digits -/

theorem isDigit_of_mem_natText {n : Nat} {c : Char} (h : c ∈ natText n) : c.isDigit = true :=
  Nat.isDigit_of_mem_toDigits (by decide) (by decide) h

theorem natText_ne_nil (n : Nat) : natText n ≠ [] :=
  Nat.toDigits_ne_nil

theorem natText_zero : natText 0 = ['0'] :=
  Nat.toDigits_zero 10

theorem head?_natText_append (n : Nat) (cs : List Char) :
    (natText n ++ cs).head? = (natText n).head? := by
  obtain ⟨d, ds, hn⟩ := List.exists_cons_of_ne_nil (natText_ne_nil n)
  rw [hn]
  rfl

/-- Only the number zero is written with a zero in front. -/
theorem head?_natText_ne {n : Nat} (h : n ≠ 0) : (natText n).head? ≠ some '0' := by
  induction n using Nat.strongRecOn with
  | ind n ih =>
    unfold natText
    rw [Nat.toDigits_eq_if (by decide)]
    split
    · next hlt => simpa using h
    · next hle =>
      have hrest : (natText (n / 10)).head? ≠ some '0' := ih (n / 10) (by omega) (by omega)
      have hhead := head?_natText_append (n / 10) [(n % 10).digitChar]
      unfold natText at hhead hrest
      rwa [hhead]

theorem le_ofDigitChars (ds : List Char) (m : Nat) : m ≤ Nat.ofDigitChars 10 ds m := by
  rw [Nat.ofDigitChars_eq_ofDigitChars_zero]
  exact Nat.le_add_right_of_le (Nat.le_mul_of_pos_left m (Nat.pow_pos (by decide)))

/-- Where the whole number is below the limit, no digit is left out. -/
theorem appendDigits_of_lt {ds : List Char} {m : Nat} (h : Nat.ofDigitChars 10 ds m < wholeLimit) :
    appendDigits m ds = (Nat.ofDigitChars 10 ds m, 0) := by
  induction ds generalizing m with
  | nil => rw [appendDigits, Nat.ofDigitChars_nil]
  | cons d ds ih =>
    rw [Nat.ofDigitChars_cons] at h ⊢
    have hnext : m * 10 + (d.toNat - '0'.toNat) < wholeLimit := by
      rw [Nat.mul_comm m]
      exact Nat.lt_of_le_of_lt (le_ofDigitChars ds _) h
    rw [appendDigits, if_pos hnext, Nat.mul_comm m]
    exact ih h

theorem appendDigits_natText {n : Nat} (h : n < wholeLimit) : appendDigits 0 (natText n) = (n, 0) := by
  have hvalue : Nat.ofDigitChars 10 (natText n) 0 = n := Nat.ofDigitChars_ten_toDigits
  rw [appendDigits_of_lt (by rwa [hvalue]), hvalue]

/-! ## Numbers -/

/-- What may stand after a number without going on it. -/
def EndsNumber (rest : List Char) : Prop :=
  ∀ c, rest.head? = some c → c.isDigit = false ∧ c ≠ '.' ∧ c ≠ 'e' ∧ c ≠ 'E'

theorem endsNumber_nil : EndsNumber [] := by
  intro c hc
  cases hc

theorem endsNumber_comma (rest : List Char) : EndsNumber (',' :: rest) := by
  intro c hc
  cases hc
  decide

theorem endsNumber_newline (rest : List Char) : EndsNumber ('\n' :: rest) := by
  intro c hc
  cases hc
  decide

variable {rest : List Char}

theorem takeWhile_natText (h : EndsNumber rest) (n : Nat) :
    (natText n ++ rest).takeWhile Char.isDigit = natText n := by
  rw [List.takeWhile_append_of_pos fun c hc => isDigit_of_mem_natText hc]
  cases rest with
  | nil => simp
  | cons c rest => simp [(h c rfl).1]

namespace Numeral

/-- A whole number as it is written. -/
def ofInt : Int → Numeral
  | .ofNat n => { negative := false, whole := natText n, fraction := [], exponent := none }
  | .negSucc n => { negative := true, whole := natText (n + 1), fraction := [], exponent := none }

theorem fraction?_of_endsNumber (h : EndsNumber rest) : fraction? rest = some ([], rest) := by
  cases rest with
  | nil => rfl
  | cons c rest =>
    have hc := (h c rfl).2.1
    simp [fraction?, hc]

theorem exponent?_of_endsNumber (h : EndsNumber rest) : exponent? rest = some (none, rest) := by
  cases rest with
  | nil => rfl
  | cons c rest =>
    obtain ⟨_, _, he, hE⟩ := h c rfl
    simp [exponent?, he, hE]

theorem whole_natText (h : EndsNumber rest) (n : Nat) :
    (if (natText n ++ rest).head? == some '0' then ['0']
      else (natText n ++ rest).takeWhile Char.isDigit) = natText n := by
  rw [takeWhile_natText h]
  by_cases hn : n = 0
  · rw [hn, natText_zero]
    rfl
  · have hzero : ¬ ((natText n).head? == some '0') = true := by simpa using head?_natText_ne hn
    rw [head?_natText_append, if_neg hzero]

theorem read?_intText (h : EndsNumber rest) (n : Int) :
    read? (intText n ++ rest) = some (ofInt n, rest) := by
  have hsign : ∀ m, ((natText m ++ rest).head? == some '-') = false := by
    intro m
    rw [head?_natText_append, beq_eq_false_iff_ne]
    intro hm
    have hdigit := isDigit_of_mem_natText (List.mem_of_mem_head? hm)
    revert hdigit
    decide
  have hempty : ∀ m, (natText m).isEmpty = false := by
    intro m
    simpa using natText_ne_nil m
  have hend : rest.head?.any Char.isDigit = false := by
    cases rest with
    | nil => rfl
    | cons c rest => exact (h c rfl).1
  cases n with
  | ofNat m =>
    simp only [read?, intText, hsign, Bool.false_eq_true, if_false, whole_natText h, hempty,
      List.drop_left, hend, fraction?_of_endsNumber h, Option.bind_eq_bind, Option.bind_some,
      exponent?_of_endsNumber h]
    rfl
  | negSucc m =>
    have hminus : (('-' :: (natText (m + 1) ++ rest)).head? == some '-') = true := rfl
    simp only [read?, intText, List.cons_append, hminus, if_true, List.drop_succ_cons,
      List.drop_zero, whole_natText h, hempty, Bool.false_eq_true, if_false, List.drop_left, hend,
      fraction?_of_endsNumber h, Option.bind_eq_bind, Option.bind_some, exponent?_of_endsNumber h]
    rfl

/-- A whole number that is neither rounded nor too great. -/
theorem value?_ofInt {n : Int} (hlow : -negativeLimit ≤ n) (hhigh : n < wholeLimit) :
    (ofInt n).value? = some (.whole n) := by
  have hlimits : negativeLimit < wholeLimit := by decide
  unfold value?
  cases n with
  | ofNat m =>
    have hm : m < wholeLimit := Int.ofNat_lt.1 hhigh
    rw [ofInt, appendDigits_natText hm]
    rfl
  | negSucc m =>
    have hm : m + 1 < wholeLimit := by omega
    have hkept : (m + 1 == 0 || decide (negativeLimit < m + 1)) = false := by
      rw [decide_eq_false (by omega)]
      rfl
    rw [ofInt, appendDigits_natText hm]
    show (if (m + 1 == 0 || decide (negativeLimit < m + 1)) = true then _ else _) = _
    rw [hkept]
    rfl

end Numeral

/-! ## Strings -/

/-- A character is written with a short escape, by its number or as it is. -/
theorem escapeChar_cases (c : Char) :
    (∃ e, escapeChar c = ['\\', e] ∧ e ≠ 'u' ∧ shortEscape? e = some c) ∨
    (c.toNat < 0x20 ∧ escapeChar c =
      ['\\', 'u', '0', '0', hexDigit (c.toNat / 16), hexDigit (c.toNat % 16)]) ∨
    (0x20 ≤ c.toNat ∧ c ≠ '"' ∧ c ≠ '\\' ∧ escapeChar c = [c]) := by
  unfold escapeChar
  split
  · next h => exact .inl ⟨'"', rfl, by decide, by rw [eq_of_beq h]; rfl⟩
  split
  · next h => exact .inl ⟨'\\', rfl, by decide, by rw [eq_of_beq h]; rfl⟩
  split
  · next h => exact .inl ⟨'n', rfl, by decide, by rw [eq_of_beq h]; rfl⟩
  split
  · next h => exact .inl ⟨'r', rfl, by decide, by rw [eq_of_beq h]; rfl⟩
  split
  · next h => exact .inl ⟨'t', rfl, by decide, by rw [eq_of_beq h]; rfl⟩
  split
  · next h => exact .inl ⟨'b', rfl, by decide, by rw [← Char.ofNat_toNat c, eq_of_beq h]; rfl⟩
  split
  · next h => exact .inl ⟨'f', rfl, by decide, by rw [← Char.ofNat_toNat c, eq_of_beq h]; rfl⟩
  split
  · next h => exact .inr (.inl ⟨h, rfl⟩)
  · next hquote hbackslash _ _ _ _ _ h =>
    exact .inr (.inr ⟨by omega, by simpa using hquote, by simpa using hbackslash, rfl⟩)

theorem rawString?_plain {c : Char} (hquote : c ≠ '"') (hbackslash : c ≠ '\\')
    (hc : 0x20 ≤ c.toNat) (cs : List Char) :
    rawString? (c :: cs) = (rawString? cs).map fun (raw, rest) => (c :: raw, rest) := by
  have hlow : ¬ c.toNat < 0x20 := by omega
  simp [rawString?, hbackslash, hlow]

theorem hexDigit_plain : ∀ n < 16,
    hexDigit n ≠ '"' ∧ hexDigit n ≠ '\\' ∧ 0x20 ≤ (hexDigit n).toNat := by
  decide

theorem hexValue?_hexDigit : ∀ n < 16, hexValue? (hexDigit n) = some n := by
  decide

/-- The content of a string ends at its own closing quote. -/
theorem rawString?_escaped (cs rest : List Char) :
    rawString? (cs.flatMap escapeChar ++ '"' :: rest) = some (cs.flatMap escapeChar, rest) := by
  induction cs with
  | nil => rfl
  | cons c cs ih =>
    rw [List.flatMap_cons, List.append_assoc]
    rcases escapeChar_cases c with ⟨e, he, _, _⟩ | ⟨hc, he⟩ | ⟨hc, hquote, hbackslash, he⟩
    · simp [he, rawString?, ih]
    · obtain ⟨hq, hb, hp⟩ := hexDigit_plain (c.toNat / 16) (by omega)
      obtain ⟨hq', hb', hp'⟩ := hexDigit_plain (c.toNat % 16) (by omega)
      simp [he, rawString?, rawString?_plain, hq, hb, hp, hq', hb', hp', ih]
    · simp [he, rawString?_plain hquote hbackslash hc, ih]

theorem hexValue4?_hexDigit {n : Nat} (h : n < 0x20) :
    hexValue4? '0' '0' (hexDigit (n / 16)) (hexDigit (n % 16)) = some n := by
  have hzero : hexValue? '0' = some 0 := by decide
  have hvalue : n / 16 * 16 + n % 16 = n := by omega
  simp [hexValue4?, hzero, hexValue?_hexDigit (n / 16) (by omega),
    hexValue?_hexDigit (n % 16) (by omega), hvalue]

/-- A code unit that is not half of a character stands for one by itself. -/
theorem joinUnits?_code {n : Nat} (h : n < 0xD800) (us : List StringUnit) :
    joinUnits? (.code n :: us) = (joinUnits? us).map (Char.ofNat n :: ·) := by
  have hhigh : ¬ 0xD800 ≤ n := by omega
  have hlow : ¬ 0xDC00 ≤ n := by omega
  cases us with
  | nil => simp [joinUnits?, hhigh]
  | cons u us => cases u <;> simp [joinUnits?, hhigh, hlow]

theorem units?_escaped (cs : List Char) :
    ∃ us, units? (cs.flatMap escapeChar) = some us ∧ joinUnits? us = some cs := by
  induction cs with
  | nil => exact ⟨[], rfl, rfl⟩
  | cons c cs ih =>
    obtain ⟨us, hus, hjoin⟩ := ih
    rw [List.flatMap_cons]
    rcases escapeChar_cases c with ⟨e, he, hu, hshort⟩ | ⟨hc, he⟩ | ⟨_, _, hbackslash, he⟩
    · exact ⟨.char c :: us, by simp [he, units?, hu, hshort, hus], by simp [joinUnits?, hjoin]⟩
    · refine ⟨.code c.toNat :: us, by simp [he, units?, hexValue4?_hexDigit hc, hus], ?_⟩
      rw [joinUnits?_code (by omega), hjoin, Char.ofNat_toNat]
      rfl
    · exact ⟨.char c :: us, by simp [he, units?, hbackslash, hus], by simp [joinUnits?, hjoin]⟩

/-- A string is read back from its quoted form, of which the opening quote has been read. -/
theorem quoted?_escaped (s : String) (rest : List Char) :
    ∃ us, quoted? (s.toList.flatMap escapeChar ++ '"' :: rest) = some (us, rest) ∧
      text? us = some s := by
  obtain ⟨us, hus, hjoin⟩ := units?_escaped s.toList
  refine ⟨us, ?_, ?_⟩
  · rw [quoted?, rawString?_escaped]
    simp [hus]
  · rw [text?, hjoin, Option.map_some, String.ofList_toList]

end Json
end Comfort
