import Mathlib.Data.List.Basic

/-!
# Words

The shell splits what an unquoted variable or command holds into words at its blanks, of which any
number may stand between two words. `words` is that splitting, for any test for blanks, and
everything about it follows from how it treats one blank.

A word that is a pattern is then replaced by the pathnames that match it. Which ones these are is a
parameter; words that are no patterns stay.
-/

namespace Kerrighed.Common

variable {α : Type*}

/-- The words of a text, for a test that tells its blanks. -/
def words (blank : α → Bool) (text : List α) : List (List α) :=
  (text.splitOnP blank).filter (!·.isEmpty)

/-- The blanks of the shell. -/
def isIfs (c : Char) : Bool := c ∈ [' ', '\t', '\n']

/-- The characters that make a word a pattern for pathnames. -/
def isGlob (c : Char) : Bool := c ∈ ['*', '?', '[']

/-- A pattern is replaced by the pathnames that match it, if there are any. -/
def expandWord (glob : List Char → List (List Char)) (word : List Char) : List (List Char) :=
  if word.any isGlob = true ∧ glob word ≠ [] then glob word else [word]

/-- What the shell makes of an unquoted variable with this value. -/
def expand (glob : List Char → List (List Char)) (text : List Char) : List (List Char) :=
  (words isIfs text).flatMap (expandWord glob)

/-- A text of words, with a separator before each of them. -/
def prepended (sep : α) (ws : List (List α)) : List α := ws.flatMap (sep :: ·)

/-- An empty text has no words. -/
@[simp]
theorem words_nil (blank : α → Bool) : words blank [] = [] := by
  simp [words]

/-- Words that are no patterns stay as they are. -/
theorem expand_of_plain (glob : List Char → List (List Char)) {text : List Char}
    (h : ∀ w ∈ words isIfs text, ∀ c ∈ w, isGlob c = false) : expand glob text = words isIfs text := by
  have hword (w : List Char) (hw : w ∈ words isIfs text) : expandWord glob w = [w] := by
    have hplain : w.any isGlob = false := by simpa using h w hw
    simp [expandWord, hplain]
  rw [expand, List.flatMap_congr hword, List.flatMap_singleton']

/-- A blank separates the words before it from those behind it. -/
theorem words_append {blank : α → Bool} {c : α} (hc : blank c = true) (before behind : List α) :
    words blank (before ++ c :: behind) = words blank before ++ words blank behind := by
  rw [words, List.splitOnP_append_cons before behind hc, List.filter_append]
  rfl

/-- A blank before a text adds no word. -/
theorem words_cons {blank : α → Bool} {c : α} (hc : blank c = true) (text : List α) :
    words blank (c :: text) = words blank text := by
  have happend := words_append hc [] text
  rwa [List.nil_append, words_nil, List.nil_append] at happend

/-- A text without blanks is one word, unless it is empty. -/
theorem words_singleton {blank : α → Bool} {word : List α} (hne : word ≠ [])
    (hword : ∀ c ∈ word, blank c = false) : words blank word = [word] := by
  rw [words, List.splitOnP_eq_singleton hword]
  simp [hne]

/-- Words with a blank before each of them are split into these words. -/
theorem words_prepended {blank : α → Bool} {sep : α} (hsep : blank sep = true)
    {ws : List (List α)} (hne : ∀ w ∈ ws, w ≠ []) (hws : ∀ w ∈ ws, ∀ c ∈ w, blank c = false) :
    words blank (prepended sep ws) = ws := by
  induction ws with
  | nil => exact words_nil blank
  | cons w rest ih =>
    obtain ⟨hw, hrest⟩ := List.forall_mem_cons.mp hne
    obtain ⟨hplain, hplains⟩ := List.forall_mem_cons.mp hws
    have hword := words_singleton hw hplain
    have htail := ih hrest hplains
    change words blank (sep :: w ++ prepended sep rest) = _
    rw [List.cons_append, words_cons hsep]
    cases rest with
    | nil => simpa [prepended] using hword
    | cons next others =>
      change words blank (w ++ sep :: (next ++ prepended sep others)) = _
      rw [words_append hsep, hword, ← words_cons hsep (next ++ prepended sep others)]
      exact congrArg (w :: ·) htail

/-- Behind other words, with a blank before each of them, words are split apart as well. -/
theorem words_append_prepended {blank : α → Bool} {sep : α} (hsep : blank sep = true)
    (text : List α) {ws : List (List α)} (hne : ∀ w ∈ ws, w ≠ [])
    (hws : ∀ w ∈ ws, ∀ c ∈ w, blank c = false) :
    words blank (text ++ prepended sep ws) = words blank text ++ ws := by
  cases ws with
  | nil => simp [prepended]
  | cons w rest =>
    have htail := words_prepended hsep hne hws
    change words blank (text ++ sep :: (w ++ prepended sep rest)) = _
    rw [words_append hsep, ← words_cons hsep (w ++ prepended sep rest)]
    exact congrArg (words blank text ++ ·) htail

/-- A word is not empty. -/
theorem ne_nil_of_mem_words {blank : α → Bool} {text word : List α}
    (h : word ∈ words blank text) : word ≠ [] := by
  obtain ⟨-, hne⟩ := List.mem_filter.mp h
  simpa using hne

/-- No part of a split has a separator. -/
theorem notMem_of_mem_splitOnP {blank : α → Bool} {text part : List α}
    (h : part ∈ text.splitOnP blank) {c : α} (hc : c ∈ part) : blank c = false := by
  induction text generalizing part with
  | nil =>
    rw [List.splitOnP_nil, List.mem_singleton] at h
    rw [h] at hc
    exact absurd hc List.not_mem_nil
  | cons x rest ih =>
    rw [List.splitOnP_cons_eq_if_modifyHead] at h
    split at h
    · rcases List.mem_cons.mp h with rfl | h
      · exact absurd hc List.not_mem_nil
      · exact ih h hc
    · rename_i hx
      obtain ⟨first, others, hsplit⟩ := List.exists_cons_of_ne_nil (List.splitOnP_ne_nil blank rest)
      rw [hsplit, List.modifyHead_cons] at h
      rcases List.mem_cons.mp h with rfl | h
      · rcases List.mem_cons.mp hc with rfl | hc
        · exact Bool.eq_false_iff.mpr hx
        · exact ih (hsplit ▸ List.mem_cons_self) hc
      · exact ih (hsplit ▸ List.mem_cons_of_mem first h) hc

/-- A word has no blank. -/
theorem blank_of_mem_words {blank : α → Bool} {text word : List α}
    (h : word ∈ words blank text) {c : α} (hc : c ∈ word) : blank c = false :=
  notMem_of_mem_splitOnP (List.mem_filter.mp h).1 hc

/-- The words of a text, put together with blanks, are the same words. -/
theorem words_intercalate {blank : α → Bool} {sep : α} (hsep : blank sep = true) (text : List α) :
    words blank ([sep].intercalate (words blank text)) = words blank text := by
  have hne (w : List α) (hw : w ∈ words blank text) : w ≠ [] := ne_nil_of_mem_words hw
  have hplain (w : List α) (hw : w ∈ words blank text) (c : α) (hc : c ∈ w) : blank c = false :=
    blank_of_mem_words hw hc
  cases hwords : words blank text with
  | nil => simp
  | cons first rest =>
    rw [hwords] at hne hplain
    have htail (ws : List (List α)) (w : List α) :
        [sep].intercalate (w :: ws) = w ++ prepended sep ws := by
      induction ws generalizing w with
      | nil => simp [prepended]
      | cons next others ih =>
        rw [List.intercalate_cons_cons, ih]
        simp [prepended]
    rw [htail, words_append_prepended hsep first (fun w hw => hne w (List.mem_cons_of_mem _ hw))
      (fun w hw => hplain w (List.mem_cons_of_mem _ hw)),
      words_singleton (hne first List.mem_cons_self) (hplain first List.mem_cons_self)]
    rfl

end Kerrighed.Common
