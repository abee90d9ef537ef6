import Mathlib.Algebra.Order.Group.Unbundled.Int
import Mathlib.Data.List.Basic

/-!
# Numbers in C

The text functions `strtol`, `atol` and `atoi` and the conversions between the integer types,
on a machine where `long` has 64 bits, `int` has 32 and `short` has 16. A text is the list of
its characters, without the final NUL.
-/

namespace Kerrighed.Common

/-- `LONG_MAX`. -/
def longMax : ℤ := 9223372036854775807

/-- `LONG_MIN`. -/
def longMin : ℤ := -9223372036854775808

/-- A value that a `long` cannot hold becomes the nearest one it can hold. -/
def clampLong (v : ℤ) : ℤ := max longMin (min v longMax)

/-- Conversion to `int`, and to `pid_t`. -/
def toInt (v : ℤ) : ℤ := v.bmod 4294967296

/-- Conversion to `short`. -/
def toShort (v : ℤ) : ℤ := v.bmod 65536

/-- The difference of two numbers of type `int`, unless it overflows. -/
def subInt (a b : ℤ) : Option ℤ :=
  if -2147483648 ≤ a - b ∧ a - b ≤ 2147483647 then some (a - b) else none

/-- `isspace`. -/
def isSpace (c : Char) : Bool := c ∈ [' ', '\t', '\n', '\x0b', '\x0c', '\r']

/-- The value of a letter or digit in a base. -/
def digitOf (base : ℕ) (c : Char) : Option ℕ :=
  let d :=
    if '0' ≤ c ∧ c ≤ '9' then c.toNat - '0'.toNat
    else if 'a' ≤ c ∧ c ≤ 'z' then c.toNat - 'a'.toNat + 10
    else if 'A' ≤ c ∧ c ≤ 'Z' then c.toNat - 'A'.toNat + 10
    else base
  if d < base then some d else none

/-- Read digits as long as there are any: the value and the text that is left. -/
def readDigits (base : ℕ) : List Char → ℕ → ℕ × List Char
  | [], acc => (acc, [])
  | c :: cs, acc =>
    match digitOf base c with
    | some d => readDigits base cs (base * acc + d)
    | none => (acc, c :: cs)

/-- Split off a sign. -/
def readSign : List Char → Bool × List Char
  | '-' :: cs => (true, cs)
  | '+' :: cs => (false, cs)
  | cs => (false, cs)

/-- The base of the digits that follow: base 0 looks at their prefix and skips the `0x` of
base 16. Base 16 itself, which may skip it too, is not used. -/
def readBase (base : ℕ) (text : List Char) : ℕ × List Char :=
  match base, text with
  | 0, '0' :: x :: h :: rest =>
    if (x = 'x' ∨ x = 'X') ∧ (digitOf 16 h).isSome then (16, h :: rest) else (8, text)
  | 0, '0' :: _ => (8, text)
  | 0, _ => (10, text)
  | _, _ => (base, text)

/-- The number at the start of a text and the text behind it. Without a number the value is 0
and the whole text is left. -/
def strtol (base : ℕ) (text : List Char) : ℤ × List Char :=
  let sign := readSign (text.dropWhile isSpace)
  let r := readBase base sign.2
  match r.2 with
  | [] => (0, text)
  | c :: _ =>
    if (digitOf r.1 c).isSome then
      let n := readDigits r.1 r.2 0
      (clampLong (if sign.1 then -n.1 else n.1), n.2)
    else (0, text)

/-- The number at the start of a text, as a `long`. -/
def atol (text : List Char) : ℤ := (strtol 10 text).1

/-- The number at the start of a text, as an `int`. -/
def atoi (text : List Char) : ℤ := toInt (strtol 10 text).1

/-- The number that a decimal text, digits with an optional sign, stands for. -/
def decimalValue (text : List Char) : Option ℤ :=
  let sign := readSign text
  let n := readDigits 10 sign.2 0
  if sign.2 ≠ [] ∧ n.2 = [] then some (if sign.1 then -n.1 else n.1) else none

/-- The subtraction has a result where an `int` can hold it. -/
theorem subInt_eq_some_iff {a b d : ℤ} :
    subInt a b = some d ↔ (-2147483648 ≤ a - b ∧ a - b ≤ 2147483647) ∧ a - b = d := by
  rw [subInt]
  split <;> simp_all

/-- A space is no digit. -/
theorem isSpace_of_digit {c : Char} (h : (digitOf 10 c).isSome = true) : isSpace c = false := by
  rw [isSpace, decide_eq_false_iff_not]
  intro hmem
  simp only [List.mem_cons, List.not_mem_nil, or_false] at hmem
  rcases hmem with rfl | rfl | rfl | rfl | rfl | rfl <;> contradiction

/-- Text of which nothing is left behind its digits starts with a digit. -/
theorem digit_of_readDigits {base acc n : ℕ} {c : Char} {cs : List Char}
    (h : readDigits base (c :: cs) acc = (n, [])) : (digitOf base c).isSome = true := by
  rw [readDigits] at h
  cases hdigit : digitOf base c with
  | some d => rfl
  | none => simp [hdigit] at h

/-- A decimal text does not start with a space. -/
theorem dropWhile_decimal {text : List Char} {n : ℕ} (hne : (readSign text).2 ≠ [])
    (hdigits : readDigits 10 (readSign text).2 0 = (n, [])) : text.dropWhile isSpace = text := by
  cases text with
  | nil => rfl
  | cons c cs =>
    have hspace : isSpace c = false := by
      by_cases hminus : c = '-'
      · rw [hminus]
        decide
      · by_cases hplus : c = '+'
        · rw [hplus]
          decide
        · have hsign : readSign (c :: cs) = (false, c :: cs) := by
            unfold readSign
            split <;> simp_all
          rw [hsign] at hdigits
          exact isSpace_of_digit (digit_of_readDigits hdigits)
    rw [List.dropWhile_cons, hspace]
    rfl

/-- Reading a decimal text gives its value, or the nearest one that a `long` can hold. -/
theorem strtol_decimal {text : List Char} {v : ℤ} (h : decimalValue text = some v) :
    strtol 10 text = (clampLong v, []) := by
  simp only [decimalValue] at h
  split at h
  · rename_i hvalid
    obtain ⟨hne, hrest⟩ := hvalid
    have hdigits : readDigits 10 (readSign text).2 0 =
        ((readDigits 10 (readSign text).2 0).1, []) := Prod.ext rfl hrest
    obtain ⟨c, cs, hcons⟩ := List.exists_cons_of_ne_nil hne
    have hdigit : (digitOf 10 c).isSome = true := digit_of_readDigits (hcons ▸ hdigits)
    have hbase : readBase 10 (c :: cs) = (10, c :: cs) := rfl
    rw [← Option.some.inj h, strtol, dropWhile_decimal hne hdigits]
    rw [hcons] at hrest
    simp only [hcons, hbase, hdigit, if_true, hrest]
  · contradiction

/-- A number survives the way through `long` and `int` exactly when an `int` can hold it. -/
theorem toInt_clampLong_eq_iff {v : ℤ} :
    toInt (clampLong v) = v ↔ -2147483648 ≤ v ∧ v ≤ 2147483647 := by
  rw [toInt, clampLong, longMin, longMax]
  constructor
  · intro h
    have hlower := Int.le_bmod (x := max (-9223372036854775808) (min v 9223372036854775807))
      (show 0 < 4294967296 by decide)
    have hupper := Int.bmod_lt (x := max (-9223372036854775808) (min v 9223372036854775807))
      (show 0 < 4294967296 by decide)
    omega
  · intro h
    rw [min_eq_left (by omega), max_eq_right (by omega)]
    exact Int.bmod_eq_of_le (by omega) (by omega)

/-- An `int` survives the way through `short` exactly when a `short` can hold it. -/
theorem toShort_eq_iff {v : ℤ} : toShort v = v ↔ -32768 ≤ v ∧ v ≤ 32767 := by
  rw [toShort]
  constructor
  · intro h
    have hlower := Int.le_bmod (x := v) (show 0 < 65536 by decide)
    have hupper := Int.bmod_lt (x := v) (show 0 < 65536 by decide)
    omega
  · intro h
    exact Int.bmod_eq_of_le (by omega) (by omega)

/-- A number survives the way through `long`, `int` and `short` exactly when a `short` can hold
it. -/
theorem toShort_toInt_clampLong_eq_iff {v : ℤ} :
    toShort (toInt (clampLong v)) = v ↔ -32768 ≤ v ∧ v ≤ 32767 := by
  constructor
  · intro h
    have hshort : toShort (toShort (toInt (clampLong v))) = toShort (toInt (clampLong v)) :=
      Int.bmod_bmod
    rwa [h, toShort_eq_iff] at hshort
  · intro h
    rw [toInt_clampLong_eq_iff.mpr (by omega), toShort_eq_iff.mpr h]

/-- The text that `printf` writes for `%d` and `%ld`. -/
def printDecimal (n : ℤ) : List Char :=
  (if n < 0 then ['-'] else []) ++ Nat.toDigits 10 n.natAbs

/-- A decimal text is made of digits and a minus. -/
theorem mem_printDecimal {n : ℤ} {c : Char} (hc : c ∈ printDecimal n) :
    c = '-' ∨ c.isDigit = true := by
  rw [printDecimal, List.mem_append] at hc
  rcases hc with h | h
  · split at h
    · exact .inl (List.mem_singleton.mp h)
    · simp at h
  · exact .inr (Nat.isDigit_of_mem_toDigits (by decide) (by decide) h)

/-- A decimal text without the given character, which is neither a digit nor a minus. -/
theorem notMem_printDecimal (n : ℤ) {c : Char} (hminus : c ≠ '-') (hdigit : c.isDigit = false) :
    c ∉ printDecimal n := by
  intro hc
  rcases mem_printDecimal hc with h | h
  · exact hminus h
  · rw [hdigit] at h
    contradiction

/-- Different numbers have different decimal texts. -/
theorem printDecimal_injective : Function.Injective printDecimal := by
  intro m n heq
  have hdigits : Function.Injective (Nat.toDigits 10) :=
    Function.LeftInverse.injective fun k => Nat.ofDigitChars_ten_toDigits
  have hminus : ∀ k, '-' ∉ Nat.toDigits 10 k := fun k hmem => by
    have hdigit : '-'.isDigit = true := Nat.isDigit_of_mem_toDigits (by decide) (by decide) hmem
    contradiction
  unfold printDecimal at heq
  split at heq <;> split at heq
  · have habs := hdigits (List.cons.inj heq).2
    omega
  · rw [List.nil_append] at heq
    exact absurd (heq ▸ List.mem_cons_self) (hminus n.natAbs)
  · rw [List.nil_append] at heq
    exact absurd (heq.symm ▸ List.mem_cons_self) (hminus m.natAbs)
  · have habs := hdigits heq
    omega

/-- The text that `printf` writes for `%o`. -/
def printOctal (n : ℕ) : List Char := Nat.toDigits 8 n

/-- The character of a digit up to nine is read as that digit. -/
theorem digitOf_digitChar {base d : ℕ} (hbase : base ≤ 10) (hd : d < base) :
    digitOf base d.digitChar = some d := by
  have hchar : ∀ d < 10, ('0' ≤ d.digitChar ∧ d.digitChar ≤ '9') ∧
      d.digitChar.toNat - '0'.toNat = d := by
    decide
  obtain ⟨hrange, hvalue⟩ := hchar d (by omega)
  simp only [digitOf, hrange, and_self, if_true, hvalue, hd]

/-- Digits are read on behind digits. -/
theorem readDigits_append {base acc n : ℕ} {text : List Char}
    (h : readDigits base text acc = (n, [])) (rest : List Char) :
    readDigits base (text ++ rest) acc = readDigits base rest n := by
  induction text generalizing acc with
  | nil => rw [← (Prod.mk.inj h).1, List.nil_append]
  | cons c cs ih =>
    rw [readDigits] at h
    rw [List.cons_append, readDigits]
    cases hdigit : digitOf base c with
    | some d =>
      rw [hdigit] at h
      exact ih h
    | none =>
      rw [hdigit] at h
      simp at h

/-- The digits of a number are read as the number. -/
theorem readDigits_toDigits {base : ℕ} (hone : 1 < base) (hten : base ≤ 10) (n : ℕ) :
    readDigits base (Nat.toDigits base n) 0 = (n, []) := by
  induction n using Nat.strongRecOn with
  | ind n ih =>
    rw [Nat.toDigits_eq_if hone]
    split
    · rename_i hlt
      simp [readDigits, digitOf_digitChar hten hlt]
    · rename_i hge
      have hquotient := ih (n / base) (Nat.div_lt_self (by omega) hone)
      have hremainder : n % base < base := Nat.mod_lt n (by omega)
      rw [readDigits_append hquotient]
      simp [readDigits, digitOf_digitChar hten hremainder, Nat.div_add_mod]

/-- An octal text behind a zero is read as its number when the base is left open. -/
theorem strtol_octal {n : ℕ} (hn : (n : ℤ) ≤ longMax) :
    strtol 0 ('0' :: printOctal n) = ((n : ℤ), []) := by
  have hbase : readBase 0 ('0' :: printOctal n) = (8, '0' :: printOctal n) := by
    cases hdigits : printOctal n with
    | nil => rfl
    | cons x rest =>
      cases rest with
      | nil => rfl
      | cons h rest =>
        have hmem : x ∈ printOctal n := hdigits ▸ List.mem_cons_self
        have hx : x.isDigit = true := Nat.isDigit_of_mem_toDigits (by decide) (by decide) hmem
        rw [readBase, if_neg]
        rintro ⟨rfl | rfl, -⟩ <;> contradiction
  have hzero : readDigits 8 ('0' :: printOctal n) 0 = (n, []) := by
    rw [readDigits]
    exact readDigits_toDigits (by decide) (by decide) n
  have hspace : ('0' :: printOctal n).dropWhile isSpace = '0' :: printOctal n := rfl
  have hsign : readSign ('0' :: printOctal n) = (false, '0' :: printOctal n) := rfl
  have hfirst : (digitOf 8 '0').isSome = true := rfl
  have hclamp : clampLong n = n := by
    rw [clampLong, longMin, min_eq_left hn, max_eq_right (by omega)]
  rw [strtol]
  simp only [hspace, hsign, hbase, hfirst, hzero, if_true, Bool.false_eq_true, if_false, hclamp]

/-- A digit is no sign. -/
theorem readSign_toDigits (n : ℕ) : readSign (Nat.toDigits 10 n) = (false, Nat.toDigits 10 n) := by
  have hdigit (c : Char) (hc : c ∈ Nat.toDigits 10 n) : c.isDigit = true :=
    Nat.isDigit_of_mem_toDigits (by decide) (by decide) hc
  unfold readSign
  split
  · rename_i cs heq
    have hminus := hdigit '-' (heq ▸ List.mem_cons_self)
    contradiction
  · rename_i cs heq
    have hplus := hdigit '+' (heq ▸ List.mem_cons_self)
    contradiction
  · rfl

/-- The text of a number stands for the number. -/
theorem decimalValue_printDecimal (n : ℤ) : decimalValue (printDecimal n) = some n := by
  have hdigits : readDigits 10 (Nat.toDigits 10 n.natAbs) 0 = (n.natAbs, []) :=
    readDigits_toDigits (by decide) (by decide) n.natAbs
  have hne : Nat.toDigits 10 n.natAbs ≠ [] := Nat.toDigits_ne_nil
  rw [decimalValue, printDecimal]
  by_cases hn : n < 0
  · have hsign : readSign (['-'] ++ Nat.toDigits 10 n.natAbs) = (true, Nat.toDigits 10 n.natAbs) := rfl
    simp only [hn, if_true, hsign, hdigits, hne, ne_eq, not_false_eq_true, and_self]
    rw [Int.ofNat_natAbs_of_nonpos hn.le, neg_neg]
  · simp only [hn, if_false, List.nil_append, readSign_toDigits, hdigits, hne, ne_eq,
      not_false_eq_true, and_self, if_true, Bool.false_eq_true]
    rw [Int.natAbs_of_nonneg (not_lt.mp hn)]

end Kerrighed.Common
