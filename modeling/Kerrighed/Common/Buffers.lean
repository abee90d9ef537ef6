import Mathlib.Data.List.TakeWhile

/-!
# Character buffers

The memory that `malloc` returns is the list of its bytes, whatever they are. A store outside of
it has no result, and a string is read up to the first NUL in it.

Text is written into a buffer from its start on. `Holds` says what the buffer has then: the text,
a byte that may have been touched, and behind it what it had before.

A bounded comparison tells two strings apart at the first place where they differ. It stops at the
bound, or at a NUL that both have.
-/

namespace Kerrighed.Common

/-- Store one character. -/
def store (str : List Char) (i : ℕ) (c : Char) : Option (List Char) :=
  if i < str.length then some (str.set i c) else none

/-- Store characters one after the other. -/
def storeAll : List Char → ℕ → List Char → Option (List Char)
  | str, _, [] => some str
  | str, i, c :: cs => do
    let str ← store str i c
    storeAll str (i + 1) cs

/-- Write a text and a NUL with `snprintf`, at most `size` characters. -/
def snprintf (str : List Char) (i size : ℕ) (text : List Char) : Option (List Char) :=
  if size = 0 then some str else storeAll str i (text.take (size - 1) ++ ['\x00'])

/-- The string in a buffer, unless it has no end there. -/
def cString (str : List Char) : Option (List Char) :=
  if '\x00' ∈ str then some (str.takeWhile (· ≠ '\x00')) else none

/-- Compare two strings with `strncmp`, at most `n` characters. -/
def strncmp : ℕ → List Char → List Char → Option ℤ
  | 0, _, _ => some 0
  | n + 1, a :: as, b :: bs =>
    if a ≠ b then some (a.toNat - b.toNat)
    else if a = '\x00' then some 0
    else strncmp n as bs
  | _ + 1, _, _ => none

/-- The buffer starts with the text, and behind the byte that follows the text it is the old one. -/
def Holds (old str text : List Char) : Prop :=
  ∃ c, str = text ++ c :: old.drop (text.length + 1)

/-- Characters are stored in the place of as many others. -/
theorem storeAll_append (front cs others rest : List Char) (h : others.length = cs.length) :
    storeAll (front ++ others ++ rest) front.length cs = some (front ++ cs ++ rest) := by
  induction cs generalizing front others with
  | nil => simp [storeAll, List.eq_nil_of_length_eq_zero h]
  | cons c cs ih =>
    cases others with
    | nil => simp at h
    | cons other others =>
      have hstore : store (front ++ other :: others ++ rest) front.length c =
          some (front ++ [c] ++ others ++ rest) := by
        rw [store, if_pos (by simp)]
        simp
      have hrest := ih (front ++ [c]) others (by simpa using h)
      rw [storeAll, hstore]
      rw [List.length_append, List.length_singleton] at hrest
      simpa using hrest

/-- Storing a character behind the text overwrites the byte there. -/
theorem Holds.store {old str text : List Char} (h : Holds old str text) (c : Char) :
    store str text.length c = some (text ++ c :: old.drop (text.length + 1)) := by
  obtain ⟨d, rfl⟩ := h
  rw [Common.store, if_pos (by simp)]
  simp

/-- A character that is stored behind the text extends it. -/
theorem Holds.extend (old text : List Char) (c : Char) (hroom : text.length + 1 < old.length) :
    Holds old (text ++ c :: old.drop (text.length + 1)) (text ++ [c]) := by
  refine ⟨old[text.length + 1], ?_⟩
  rw [List.drop_eq_getElem_cons hroom]
  simp

/-- Printing behind the text extends it when there is room for the NUL. -/
theorem Holds.snprintf {old str text : List Char} (h : Holds old str text) (size : ℕ)
    (more : List Char) (hroom : text.length + more.length < old.length) (hsize : more.length < size) :
    ∃ str', snprintf str text.length size more = some str' ∧ Holds old str' (text ++ more) := by
  obtain ⟨c, rfl⟩ := h
  have htake : more.take (size - 1) = more := List.take_of_length_le (by omega)
  have hsplit : c :: old.drop (text.length + 1) =
      (c :: (old.drop (text.length + 1)).take more.length) ++
        old.drop (text.length + 1 + more.length) := by
    have hdrop : old.drop (text.length + 1 + more.length) =
        (old.drop (text.length + 1)).drop more.length := by
      rw [List.drop_drop]
    rw [hdrop, List.cons_append, List.take_append_drop]
  have hlength : (c :: (old.drop (text.length + 1)).take more.length).length =
      (more ++ ['\x00']).length := by
    simp only [List.length_cons, List.length_take, List.length_drop, List.length_append,
      List.length_nil]
    omega
  refine ⟨text ++ more ++ '\x00' :: old.drop (text.length + 1 + more.length), ?_, '\x00', ?_⟩
  · rw [Common.snprintf, if_neg (by omega), htake, hsplit, ← List.append_assoc,
      storeAll_append _ _ _ _ hlength]
    simp
  · rw [List.length_append]
    congr 3
    omega

/-- The string is the text before the first NUL. -/
theorem cString_append {text rest : List Char} (htext : '\x00' ∉ text) :
    cString (text ++ rest) = some text ↔ rest.head? = some '\x00' := by
  have hall : ∀ c ∈ text, decide (c ≠ '\x00') = true := fun c hc =>
    decide_eq_true fun heq => htext (heq ▸ hc)
  rw [cString, List.takeWhile_append_of_pos hall]
  cases rest with
  | nil => simp [htext]
  | cons c cs =>
    by_cases hc : c = '\x00'
    · simp [hc]
    · have hc' : (c == '\x00') = false := by simpa using hc
      simp [hc]

/-- Strings that start with different characters are not equal. -/
theorem strncmp_cons_of_ne {a b : Char} (h : a ≠ b) (n : ℕ) (as bs : List Char) :
    strncmp (n + 1) (a :: as) (b :: bs) ≠ some 0 := by
  intro hzero
  rw [strncmp, if_pos h, Option.some_inj] at hzero
  have hnat : a.toNat = b.toNat := by omega
  exact h (Char.toNat_inj.mp hnat)

/-- A comparison with a string ends before it leaves the string or the compared characters. -/
theorem strncmp_isSome {n : ℕ} {as text : List Char} (hn : n ≤ as.length) :
    (strncmp n as (text ++ ['\x00'])).isSome := by
  induction n generalizing as text with
  | zero => simp [strncmp]
  | succ n ih =>
    cases as with
    | nil => simp at hn
    | cons a as =>
      have hn' : n ≤ as.length := by simpa using hn
      cases text with
      | nil =>
        rw [List.nil_append, strncmp]
        split_ifs <;> simp_all
      | cons b text =>
        rw [List.cons_append, strncmp]
        split_ifs
        · rfl
        · rfl
        · exact ih hn'

/-- The compared characters agree with a string when they are a prefix of it or go on behind its
NUL. -/
theorem strncmp_eq_zero_iff {n : ℕ} {as text : List Char} (hn : n ≤ as.length)
    (htext : '\x00' ∉ text) :
    strncmp n as (text ++ ['\x00']) = some 0 ↔
      as.take n <+: text ∨ text ++ ['\x00'] <+: as.take n := by
  induction n generalizing as text with
  | zero => simp [strncmp]
  | succ n ih =>
    cases as with
    | nil => simp at hn
    | cons a as =>
      have hn' : n ≤ as.length := by simpa using hn
      cases text with
      | nil =>
        by_cases ha : a = '\x00'
        · simp [strncmp, ha]
        · have ha' : '\x00' ≠ a := fun h => ha h.symm
          have hdiff := strncmp_cons_of_ne ha n as []
          simp [hdiff, ha']
      | cons b text =>
        have hb : b ≠ '\x00' := fun h => htext (by simp [h])
        have htext' : '\x00' ∉ text := fun h => htext (List.mem_cons_of_mem _ h)
        by_cases hab : a = b
        · subst hab
          rw [List.cons_append, strncmp, if_neg (not_not.mpr rfl), if_neg hb, ih hn' htext']
          simp
        · have hba : b ≠ a := fun h => hab h.symm
          have hdiff := strncmp_cons_of_ne hab n as (text ++ ['\x00'])
          simp [hdiff, hab, hba]

end Kerrighed.Common
