import Mathlib.Data.List.Infix

/-!
# Lists of names as bit vectors

A tool that takes a set of names has a table of them and represents the set by a vector with one
bit for each entry. A token is looked up by comparing it with the entries as far as each entry
goes, so an entry is found in every token that begins with it.

Where no entry begins another one, the order of the table does not matter: a token has the bit
of the one entry that it begins with. The vector of some tokens is then a union, and depends on
nothing but the set of them.
-/

namespace Kerrighed.Common

variable {α : Type*} {table : List (List α)} {w : ℕ}

/-- No entry of the table begins another one. -/
def PrefixFree (table : List (List α)) : Prop :=
  table.Pairwise fun a b => ¬ a <+: b ∧ ¬ b <+: a

/-- Of two entries, the earlier one does not begin a token together with the later one. -/
theorem PrefixFree.not_both (hfree : PrefixFree table) {token : List α} {i j : ℕ}
    (hi : i < table.length) (hj : j < table.length) (hij : i < j) (ha : table[i] <+: token) :
    ¬ table[j] <+: token := by
  intro hb
  have hpair := List.pairwise_iff_getElem.mp hfree i j hi hj hij
  rcases List.prefix_or_prefix_of_prefix ha hb with h | h
  · exact hpair.1 h
  · exact hpair.2 h

/-- An entry that begins another one is that entry. -/
theorem PrefixFree.eq_of_prefix (hfree : PrefixFree table) {a b : List α} (ha : a ∈ table)
    (hb : b ∈ table) (hab : a <+: b) : a = b := by
  obtain ⟨i, hi, rfl⟩ := List.mem_iff_getElem.mp ha
  obtain ⟨j, hj, rfl⟩ := List.mem_iff_getElem.mp hb
  rcases lt_trichotomy i j with hij | rfl | hij
  · exact absurd List.prefix_rfl (hfree.not_both hi hj hij hab)
  · rfl
  · exact absurd hab (hfree.not_both hj hi hij List.prefix_rfl)

variable [DecidableEq α]

instance : Decidable (PrefixFree table) :=
  inferInstanceAs (Decidable (table.Pairwise _))

/-- The index of the first entry that the token begins with. -/
def prefixIndex (table : List (List α)) (token : List α) : Option ℕ :=
  table.findIdx? (·.isPrefixOf token)

/-- Add the entry that the token begins with, if there is one. -/
def addName (table : List (List α)) (res : BitVec w) (token : List α) : BitVec w :=
  match prefixIndex table token with
  | some i => res ||| (1#w <<< i)
  | none => res

/-- The vector with the bits of the entries that the tokens begin with. -/
def nameBits (w : ℕ) (table tokens : List (List α)) : BitVec w :=
  tokens.foldl (addName table) 0#w

/-- A lookup finds the entry that the token begins with. -/
theorem prefixIndex_eq_some_iff (hfree : PrefixFree table) {token : List α} {i : ℕ} :
    prefixIndex table token = some i ↔ ∃ name, table[i]? = some name ∧ name <+: token := by
  rw [prefixIndex, List.findIdx?_eq_some_iff_getElem]
  constructor
  · rintro ⟨hi, hbegins, -⟩
    exact ⟨table[i], List.getElem?_eq_getElem hi, List.isPrefixOf_iff_prefix.mp hbegins⟩
  · rintro ⟨name, hname, hbegins⟩
    obtain ⟨hi, rfl⟩ := List.getElem?_eq_some_iff.mp hname
    refine ⟨hi, List.isPrefixOf_iff_prefix.mpr hbegins, fun j hji hearlier => ?_⟩
    exact hfree.not_both (hji.trans hi) hi hji (List.isPrefixOf_iff_prefix.mp hearlier) hbegins

/-- A lookup fails where the token begins with no entry. -/
theorem prefixIndex_eq_none_iff {token : List α} :
    prefixIndex table token = none ↔ ∀ name ∈ table, ¬ name <+: token := by
  simp only [prefixIndex, List.findIdx?_eq_none_iff, Bool.eq_false_iff, ne_eq,
    List.isPrefixOf_iff_prefix]

/-- An index that a lookup finds is one of the table. -/
theorem prefixIndex_lt {token : List α} {i : ℕ} (h : prefixIndex table token = some i) :
    i < table.length :=
  (List.findIdx?_eq_some_iff_getElem.mp h).1

/-- A token sets at most the bit that its lookup finds. -/
theorem getLsbD_addName (res : BitVec w) (token : List α) {i : ℕ} (hi : i < w) :
    (addName table res token).getLsbD i = true ↔
      res.getLsbD i = true ∨ prefixIndex table token = some i := by
  unfold addName
  cases prefixIndex table token with
  | none => simp
  | some j =>
    rw [BitVec.getLsbD_or, ← BitVec.twoPow_eq, BitVec.getLsbD_twoPow, Bool.or_eq_true]
    simp only [Option.some.injEq, Bool.and_eq_true, decide_eq_true_eq]
    exact or_congr_right ⟨And.right, fun h => ⟨h ▸ hi, h⟩⟩

/-- Tokens set the bits that their lookups find, and leave the others. -/
theorem getLsbD_foldl_addName (tokens : List (List α)) (res : BitVec w) {i : ℕ} (hi : i < w) :
    (tokens.foldl (addName table) res).getLsbD i = true ↔
      res.getLsbD i = true ∨ ∃ token ∈ tokens, prefixIndex table token = some i := by
  induction tokens generalizing res with
  | nil => simp
  | cons token tokens ih =>
    rw [List.foldl_cons, ih, getLsbD_addName res token hi, or_assoc, List.exists_mem_cons_iff]

/-- The bits of a vector that is wide enough for the table. -/
theorem getLsbD_nameBits (hw : table.length ≤ w) (tokens : List (List α)) (i : ℕ) :
    (nameBits w table tokens).getLsbD i = true ↔
      ∃ token ∈ tokens, prefixIndex table token = some i := by
  by_cases hi : i < w
  · rw [nameBits, getLsbD_foldl_addName tokens _ hi]
    simp
  · refine ⟨fun h => absurd (BitVec.lt_of_getLsbD h) hi, ?_⟩
    rintro ⟨token, -, h⟩
    exact absurd ((prefixIndex_lt h).trans_le hw) hi

/-- The vector depends on nothing but the set of the tokens. -/
theorem nameBits_congr (hw : table.length ≤ w) {a b : List (List α)}
    (h : ∀ token, token ∈ a ↔ token ∈ b) : nameBits w table a = nameBits w table b := by
  apply BitVec.eq_of_getLsbD_eq
  intro i _
  rw [Bool.eq_iff_iff, getLsbD_nameBits hw, getLsbD_nameBits hw]
  simp only [h]

/-- The vector of joined lists is the union of their vectors. -/
theorem nameBits_append (hw : table.length ≤ w) (a b : List (List α)) :
    nameBits w table (a ++ b) = nameBits w table a ||| nameBits w table b := by
  apply BitVec.eq_of_getLsbD_eq
  intro i _
  rw [Bool.eq_iff_iff, BitVec.getLsbD_or, Bool.or_eq_true]
  simp only [getLsbD_nameBits hw, List.mem_append, or_and_right, exists_or]

end Kerrighed.Common
