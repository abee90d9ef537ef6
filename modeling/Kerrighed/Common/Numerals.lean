import Kerrighed.Common.CNumbers
import Mathlib.Data.List.TakeWhile

/-!
# Decimal numerals

A numeral is a nonempty text of decimal digits. In base 10 `strtol` reads a numeral with
optional blanks and a sign before it, and leaves the text behind its digits. `Spelling` is the
form of all texts that it reads: each spelling is read with its value, and whenever a number is
read the text starts with a spelling.
-/

namespace Kerrighed.Common

/-- A nonempty text of decimal digits. -/
structure Numeral where
  digits : List Char
  nonempty : digits ≠ []
  areDigits : ∀ c ∈ digits, c.isDigit = true

/-- The number that a numeral stands for. -/
def Numeral.value (m : Numeral) : ℕ := Nat.ofDigitChars 10 m.digits 0

/-- The numeral of a number. -/
def decimal (n : ℕ) : Numeral :=
  ⟨Nat.toDigits 10 n, Nat.toDigits_ne_nil,
    fun _ hc => Nat.isDigit_of_mem_toDigits (by decide) (by decide) hc⟩

/-- The numeral of a number stands for it. -/
@[simp]
theorem value_decimal (n : ℕ) : (decimal n).value = n := Nat.ofDigitChars_ten_toDigits

/-- The sign before a numeral. -/
inductive Sign where
  | none
  | plus
  | minus
  deriving DecidableEq, Repr

/-- How a sign is written. -/
def Sign.text : Sign → List Char
  | .none => []
  | .plus => ['+']
  | .minus => ['-']

/-- A numeral behind blanks and a sign. -/
structure Spelling where
  blanks : List Char
  areBlanks : ∀ c ∈ blanks, isSpace c = true
  sign : Sign
  numeral : Numeral

/-- The text of a spelling. -/
def Spelling.text (p : Spelling) : List Char := p.blanks ++ (p.sign.text ++ p.numeral.digits)

/-- The number that a spelling stands for. -/
def Spelling.value (p : Spelling) : ℤ :=
  if p.sign = .minus then -p.numeral.value else p.numeral.value

/-- No digit follows. -/
def NoDigit (rest : List Char) : Prop := ∀ c ∈ rest.head?, c.isDigit = false

/-- The value of a digit in base 10. -/
theorem digitOf_ten (c : Char) :
    digitOf 10 c = if c.isDigit then some (c.toNat - '0'.toNat) else none := by
  have hdigit : c.isDigit = true ↔ '0' ≤ c ∧ c ≤ '9' := by
    rw [Char.isDigit, Bool.and_eq_true, decide_eq_true_iff, decide_eq_true_iff]
    rfl
  rw [digitOf]
  by_cases h : '0' ≤ c ∧ c ≤ '9'
  · have hlt : c.toNat - '0'.toNat < 10 := by
      have hupper : c.toNat ≤ '9'.toNat := h.2
      have hnine : '9'.toNat = '0'.toNat + 9 := rfl
      omega
    simp only [h, and_self, if_true, hlt, hdigit.mpr h]
  · have hno : c.isDigit = false := Bool.eq_false_iff.mpr fun hc => h (hdigit.mp hc)
    rw [if_neg h, hno]
    split
    · simp
    · split <;> simp

/-- The digits are read up to the first other character. -/
theorem readDigits_ten (text : List Char) (acc : ℕ) :
    readDigits 10 text acc =
      (Nat.ofDigitChars 10 (text.takeWhile Char.isDigit) acc, text.dropWhile Char.isDigit) := by
  induction text generalizing acc with
  | nil => simp [readDigits]
  | cons c cs ih =>
    rw [readDigits, digitOf_ten, List.takeWhile_cons, List.dropWhile_cons]
    split
    · rename_i d hd
      split at hd
      · rename_i hc
        rw [← Option.some.inj hd, ih, hc, if_pos rfl, if_pos rfl, Nat.ofDigitChars_cons]
      · contradiction
    · rename_i hd
      split at hd
      · contradiction
      · rename_i hc
        rw [Bool.eq_false_iff.mpr hc]
        rfl

/-- In base 10 the digits behind blanks and a sign are read, if there are any. -/
theorem strtol_ten (text : List Char) :
    strtol 10 text =
      let sign := readSign (text.dropWhile isSpace)
      let digits := sign.2.takeWhile Char.isDigit
      if digits = [] then (0, text)
      else (clampLong (if sign.1 then -Nat.ofDigitChars 10 digits 0
        else Nat.ofDigitChars 10 digits 0), sign.2.dropWhile Char.isDigit) := by
  have hbase (body : List Char) : readBase 10 body = (10, body) := by cases body <;> rfl
  rw [strtol]
  simp only [hbase, readDigits_ten, digitOf_ten]
  cases hbody : (readSign (text.dropWhile isSpace)).2 with
  | nil => simp
  | cons c cs =>
    by_cases hc : c.isDigit = true
    · simp [hc]
    · simp [hc]

/-- A digit is no blank. -/
theorem isSpace_of_isDigit {c : Char} (hc : c.isDigit = true) : isSpace c = false :=
  isSpace_of_digit (by simp [digitOf_ten, hc])

/-- A numeral starts with a digit. -/
theorem Numeral.exists_cons (m : Numeral) : ∃ c cs, m.digits = c :: cs ∧ c.isDigit = true := by
  obtain ⟨c, cs, hcons⟩ := List.exists_cons_of_ne_nil m.nonempty
  exact ⟨c, cs, hcons, m.areDigits c (hcons ▸ List.mem_cons_self)⟩

/-- The sign is split off a numeral. -/
theorem readSign_text (sign : Sign) (m : Numeral) (rest : List Char) :
    readSign (sign.text ++ m.digits ++ rest) = (decide (sign = .minus), m.digits ++ rest) := by
  cases sign with
  | none =>
    obtain ⟨c, cs, hcons, hc⟩ := m.exists_cons
    have hminus : c ≠ '-' := by
      rintro rfl
      contradiction
    have hplus : c ≠ '+' := by
      rintro rfl
      contradiction
    rw [hcons]
    change readSign (c :: (cs ++ rest)) = _
    unfold readSign
    split <;> simp_all
  | plus => rfl
  | minus => rfl

/-- No blank stands behind the blanks of a spelling. -/
theorem dropWhile_spelling (p : Spelling) (rest : List Char) :
    (p.text ++ rest).dropWhile isSpace = p.sign.text ++ p.numeral.digits ++ rest := by
  rw [Spelling.text, List.append_assoc, List.dropWhile_append_of_pos p.areBlanks]
  cases hsign : p.sign with
  | none =>
    obtain ⟨c, cs, hcons, hc⟩ := p.numeral.exists_cons
    simp [Sign.text, hcons, isSpace_of_isDigit hc]
  | plus => rfl
  | minus => rfl

/-- The digits of a numeral end where no digit follows. -/
theorem takeWhile_numeral (m : Numeral) {rest : List Char} (hrest : NoDigit rest) :
    (m.digits ++ rest).takeWhile Char.isDigit = m.digits ∧
      (m.digits ++ rest).dropWhile Char.isDigit = rest := by
  rw [List.takeWhile_append_of_pos m.areDigits, List.dropWhile_append_of_pos m.areDigits]
  cases rest with
  | nil => simp
  | cons c cs =>
    have hc : c.isDigit = false := hrest c rfl
    simp [hc]

/-- A spelling is read with its value, or with the nearest one that a `long` can hold. -/
theorem strtol_spelling (p : Spelling) {rest : List Char} (hrest : NoDigit rest) :
    strtol 10 (p.text ++ rest) = (clampLong p.value, rest) := by
  obtain ⟨htake, hdrop⟩ := takeWhile_numeral p.numeral hrest
  rw [strtol_ten]
  simp only [dropWhile_spelling, readSign_text, htake, hdrop, p.numeral.nonempty, if_false,
    decide_eq_true_eq]
  rfl

/-- The sign that was split off and the text behind it. -/
theorem exists_sign (body : List Char) :
    ∃ sign : Sign, body = sign.text ++ (readSign body).2 := by
  unfold readSign
  split
  · exact ⟨.minus, rfl⟩
  · exact ⟨.plus, rfl⟩
  · exact ⟨.none, rfl⟩

/-- What is read starts with a spelling, behind which no digit follows. -/
theorem exists_spelling {text : List Char} (h : (strtol 10 text).2 ≠ text) :
    ∃ p : Spelling, ∃ rest, text = p.text ++ rest ∧ NoDigit rest := by
  obtain ⟨sign, hsign⟩ := exists_sign (text.dropWhile isSpace)
  rw [strtol_ten] at h
  generalize readSign (text.dropWhile isSpace) = r at h hsign
  by_cases hdigits : r.2.takeWhile Char.isDigit = []
  · simp only [hdigits, if_true, ne_eq, not_true_eq_false] at h
  · refine ⟨⟨text.takeWhile isSpace, fun c hc => List.mem_takeWhile_imp hc, sign,
      ⟨r.2.takeWhile Char.isDigit, hdigits, fun c hc => List.mem_takeWhile_imp hc⟩⟩,
      r.2.dropWhile Char.isDigit, ?_, ?_⟩
    · calc text = text.takeWhile isSpace ++ text.dropWhile isSpace :=
            List.takeWhile_append_dropWhile.symm
        _ = text.takeWhile isSpace ++ (sign.text ++
              (r.2.takeWhile Char.isDigit ++ r.2.dropWhile Char.isDigit)) := by
            rw [hsign, List.takeWhile_append_dropWhile]
        _ = _ := by simp only [Spelling.text, List.append_assoc]
    · intro c hc
      have hnot := List.head?_dropWhile_not Char.isDigit r.2
      rw [Option.mem_def.mp hc] at hnot
      exact hnot

end Kerrighed.Common
