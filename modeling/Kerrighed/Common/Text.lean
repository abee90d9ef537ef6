import Mathlib.Data.List.DropRight
import Mathlib.Data.List.Infix

/-!
# Text filters

The parts of `grep`, `tr` and `cut` that shell pipelines use, on texts made of lines. A text is
the list of its characters; its last line may lack the newline, and a filter that writes lines
adds it.
-/

namespace Kerrighed.Common

variable {α : Type*} [DecidableEq α]

/-- The lines of a text, without their newlines. -/
def lines (text : List Char) : List (List Char) :=
  let parts := text.splitOn '\n'
  if parts.getLast? = some [] then parts.dropLast else parts

/-- The text of some lines. -/
def unlines (ls : List (List Char)) : List Char := ls.flatMap (· ++ ['\n'])

/-- `grep '^pattern'` for a pattern without special characters. -/
def grepStart (pattern text : List Char) : List Char :=
  unlines ((lines text).filter (pattern.isPrefixOf ·))

/-- `grep 'pattern'` for a pattern without special characters. -/
def grep (pattern text : List Char) : List Char :=
  unlines ((lines text).filter fun line => decide (pattern <:+: line))

/-- A line without the first place where it contains the pattern. -/
def deleteFirst (pattern : List Char) : List Char → List Char
  | [] => []
  | c :: line =>
    if pattern.isPrefixOf (c :: line) then (c :: line).drop pattern.length
    else c :: deleteFirst pattern line

/-- `sed 's/pattern//'` for a nonempty pattern without special characters. -/
def sedDelete (pattern text : List Char) : List Char :=
  unlines ((lines text).map (deleteFirst pattern))

/-- What the shell puts in place of a command: its output without the newlines at the end. -/
def commandOutput (output : List Char) : List Char := output.rdropWhile (· = '\n')

/-- `tr -d chars`. -/
def trDelete (chars text : List Char) : List Char := text.filter (· ∉ chars)

/-- A field of a line, counted from 1. A line without a delimiter is its own only field. -/
def field (delimiter : Char) (k : ℕ) (line : List Char) : List Char :=
  let fields := line.splitOn delimiter
  if fields.length = 1 then line else fields.getD (k - 1) []

/-- `cut -d delimiter -f k`. -/
def cut (delimiter : Char) (k : ℕ) (text : List Char) : List Char :=
  unlines ((lines text).map (field delimiter k))

/-- A beginning without the separator belongs to the first part. -/
theorem splitOn_append_of_notMem {a : List α} {sep : α} (ha : sep ∉ a) (b : List α) :
    (a ++ b).splitOn sep = (b.splitOn sep).modifyHead (a ++ ·) := by
  induction a with
  | nil =>
    rw [List.nil_append]
    cases b.splitOn sep <;> rfl
  | cons x a ih =>
    rw [List.mem_cons, not_or] at ha
    have hx : (x == sep) = false := by simpa using Ne.symm ha.1
    rw [List.cons_append, List.splitOn_cons_eq_if_modifyHead, hx, ih ha.2]
    cases b.splitOn sep <;> rfl

/-- A list without the separator is its only part. -/
theorem splitOn_of_notMem {a : List α} {sep : α} (ha : sep ∉ a) : a.splitOn sep = [a] := by
  rw [List.splitOn_eq_splitOnP]
  refine List.splitOnP_eq_singleton fun x hx => ?_
  have hne : x ≠ sep := fun heq => ha (heq ▸ hx)
  simpa using hne

/-- A separator splits a list into the parts before and behind it. -/
theorem splitOn_append_cons (a b : List α) (sep : α) :
    (a ++ sep :: b).splitOn sep = a.splitOn sep ++ b.splitOn sep := by
  simp only [List.splitOn_eq_splitOnP]
  exact List.splitOnP_append_cons a b (by simp)

/-- Joined lists are split into the parts of each. -/
theorem splitOn_intercalate {ls : List (List α)} (hls : ls ≠ []) (sep : α) :
    ([sep].intercalate ls).splitOn sep = ls.flatMap (·.splitOn sep) := by
  induction ls with
  | nil => contradiction
  | cons l rest ih =>
    cases rest with
    | nil => simp
    | cons l' rest =>
      rw [List.intercalate_cons_cons, List.append_assoc, List.singleton_append,
        splitOn_append_cons, ih (by simp), ← List.flatMap_cons]

omit [DecidableEq α] in
/-- Lists are joined by the first one and a separator before each of the others. -/
theorem intercalate_cons (sep : α) (l : List α) (ls : List (List α)) :
    [sep].intercalate (l :: ls) = l ++ ls.flatMap (sep :: ·) := by
  induction ls generalizing l with
  | nil => simp
  | cons next rest ih =>
    rw [List.intercalate_cons_cons, ih, List.flatMap_cons, List.append_assoc,
      List.singleton_append, List.cons_append]

omit [DecidableEq α] in
/-- Joined lists contain nothing but what they are made of. -/
theorem notMem_intercalate {sep x : α} (hsep : x ≠ sep) {ls : List (List α)}
    (hls : ∀ l ∈ ls, x ∉ l) : x ∉ [sep].intercalate ls := by
  cases ls with
  | nil => simp
  | cons l ls =>
    rw [intercalate_cons, List.mem_append, not_or]
    refine ⟨hls l List.mem_cons_self, fun hmem => ?_⟩
    obtain ⟨other, hother, hx⟩ := List.mem_flatMap.mp hmem
    rcases List.mem_cons.mp hx with hx | hx
    · exact hsep hx
    · exact hls other (List.mem_cons_of_mem _ hother) hx

/-- The first part is how the list begins. -/
theorem head_splitOn_prefix (l : List α) (sep : α) :
    ∃ part rest, l.splitOn sep = part :: rest ∧ part <+: l := by
  induction l with
  | nil => exact ⟨[], [], List.splitOn_nil sep, List.nil_prefix⟩
  | cons x l ih =>
    rw [List.splitOn_cons_eq_if_modifyHead]
    split
    · exact ⟨[], _, rfl, List.nil_prefix⟩
    · obtain ⟨part, rest, heq, hprefix⟩ := ih
      rw [heq]
      exact ⟨x :: part, rest, rfl, (List.cons_prefix_cons).mpr ⟨rfl, hprefix⟩⟩

/-- A part behind a separator begins with a given list exactly when that list stands behind a
separator. -/
theorem exists_mem_tail_splitOn {p l : List α} {sep : α} (hp : sep ∉ p) :
    (∃ part ∈ (l.splitOn sep).tail, p <+: part) ↔
      ∃ before after, l = before ++ sep :: (p ++ after) := by
  constructor
  · intro h
    induction l with
    | nil => simp at h
    | cons x l ih =>
      obtain ⟨part, hpart, hprefix⟩ := h
      rw [List.splitOn_cons_eq_if_modifyHead] at hpart
      split at hpart
      · rename_i hx
        obtain ⟨first, rest, heq, hfirst⟩ := head_splitOn_prefix l sep
        rw [List.tail_cons, heq, List.mem_cons] at hpart
        rcases hpart with rfl | hpart
        · obtain ⟨after, hafter⟩ := hprefix.trans hfirst
          exact ⟨[], after, by simp [hafter, eq_of_beq hx]⟩
        · obtain ⟨before, after, rfl⟩ := ih ⟨part, by rw [heq]; exact hpart, hprefix⟩
          exact ⟨x :: before, after, rfl⟩
      · rw [List.tail_modifyHead] at hpart
        obtain ⟨before, after, rfl⟩ := ih ⟨part, hpart, hprefix⟩
        exact ⟨x :: before, after, rfl⟩
  · rintro ⟨before, after, rfl⟩
    obtain ⟨first, rest, hbefore, -⟩ := head_splitOn_prefix before sep
    obtain ⟨part, others, hafter, -⟩ := head_splitOn_prefix after sep
    rw [splitOn_append_cons, splitOn_append_of_notMem hp, hbefore, hafter]
    refine ⟨p ++ part, ?_, List.prefix_append p part⟩
    simp

/-- A part stands behind a separator and before the next one or the end. -/
theorem exists_of_mem_splitOn {part l : List α} {sep : α} (hmem : part ∈ l.splitOn sep) :
    ∃ before rest, sep :: l = before ++ sep :: (part ++ rest) ∧
      (rest = [] ∨ ∃ after, rest = sep :: after) := by
  obtain ⟨first, last, hsplit⟩ := List.append_of_mem hmem
  have hjoin : [sep].intercalate (first ++ part :: last) = l := by
    rw [← hsplit]
    exact List.intercalate_splitOn sep
  clear hsplit hmem
  induction first generalizing l with
  | nil =>
    refine ⟨[], last.flatMap (sep :: ·), ?_, ?_⟩
    · rw [← hjoin, List.nil_append, List.nil_append, intercalate_cons]
    · cases last with
      | nil => exact .inl rfl
      | cons next last => exact .inr ⟨_, List.flatMap_cons⟩
  | cons other first ih =>
    obtain ⟨before, rest, heq, hrest⟩ := ih rfl
    refine ⟨sep :: (other ++ before), rest, ?_, hrest⟩
    rw [← hjoin, List.cons_append, List.intercalate_cons_of_ne_nil (by simp), List.append_assoc,
      List.singleton_append, heq, List.cons_append, List.append_assoc]

/-- The parts of a list are what stands behind a separator and before the next one or the end. -/
theorem mem_splitOn_iff {part l : List α} {sep : α} (hpart : sep ∉ part) :
    part ∈ l.splitOn sep ↔ ∃ before rest, sep :: l = before ++ sep :: (part ++ rest) ∧
      (rest = [] ∨ ∃ after, rest = sep :: after) := by
  refine ⟨exists_of_mem_splitOn, ?_⟩
  rintro ⟨before, rest, heq, hrest⟩
  have hparts : ([] : List α) :: l.splitOn sep =
      before.splitOn sep ++ (part ++ rest).splitOn sep := by
    rw [← splitOn_append_cons, ← heq]
    exact (splitOn_append_cons [] l sep).symm
  have hlast : part ∈ (part ++ rest).splitOn sep := by
    rcases hrest with rfl | ⟨after, rfl⟩
    · rw [List.append_nil, splitOn_of_notMem hpart]
      exact List.mem_cons_self
    · rw [splitOn_append_cons, splitOn_of_notMem hpart]
      exact List.mem_cons_self
  obtain ⟨first, others, hbefore, -⟩ := head_splitOn_prefix before sep
  rw [hbefore, List.cons_append] at hparts
  rw [(List.cons.inj hparts).2]
  exact List.mem_append_right _ hlast

/-- A newline ends a line. -/
theorem lines_append_newline (a b : List Char) :
    lines (a ++ '\n' :: b) = a.splitOn '\n' ++ lines b := by
  simp only [lines, splitOn_append_cons]
  have hne : b.splitOn '\n' ≠ [] := List.splitOn_ne_nil _ _
  rw [List.getLast?_append_of_ne_nil _ hne]
  split
  · exact List.dropLast_append_of_ne_nil hne
  · rfl

/-- A nonempty text without a newline is one line. -/
theorem lines_of_notMem {text : List Char} (hne : text ≠ []) (h : '\n' ∉ text) :
    lines text = [text] := by
  simp [lines, splitOn_of_notMem h, hne]

/-- An empty text has no line. -/
@[simp]
theorem lines_nil : lines [] = [] := by
  simp [lines]

/-- The lines of a text made of lines. -/
theorem lines_unlines {ls : List (List Char)} (hls : ∀ line ∈ ls, '\n' ∉ line) :
    lines (unlines ls) = ls := by
  induction ls with
  | nil => exact lines_nil
  | cons line ls ih =>
    have hcons : unlines (line :: ls) = line ++ '\n' :: unlines ls := by
      simp [unlines]
    rw [hcons, lines_append_newline, splitOn_of_notMem (hls line List.mem_cons_self),
      ih fun other hother => hls other (List.mem_cons_of_mem _ hother)]
    rfl

/-- The text of one line. -/
@[simp]
theorem unlines_singleton (line : List Char) : unlines [line] = line ++ ['\n'] :=
  List.flatMap_singleton _ line

/-- The pattern is deleted from the start of a line that begins with it. -/
theorem deleteFirst_append {pattern : List Char} (hpattern : pattern ≠ []) (rest : List Char) :
    deleteFirst pattern (pattern ++ rest) = rest := by
  obtain ⟨c, pattern, rfl⟩ := List.exists_cons_of_ne_nil hpattern
  simp [deleteFirst]

/-- A text without newlines is what the shell makes of the line with it. -/
theorem commandOutput_line {text : List Char} (htext : '\n' ∉ text) :
    commandOutput (text ++ ['\n']) = text := by
  unfold commandOutput
  rw [List.rdropWhile_concat_pos _ _ _ (by decide), List.rdropWhile_eq_self_iff]
  intro hne hlast
  exact htext (of_decide_eq_true hlast ▸ List.getLast_mem hne)

/-- A character of a part is one of the list. -/
theorem mem_of_mem_splitOn {l part : List α} {sep x : α} (hpart : part ∈ l.splitOn sep)
    (hx : x ∈ part) : x ∈ l := by
  induction l generalizing part with
  | nil =>
    rw [List.splitOn_nil, List.mem_singleton] at hpart
    rwa [hpart] at hx
  | cons y l ih =>
    rw [List.splitOn_cons_eq_if_modifyHead] at hpart
    split at hpart
    · rcases List.mem_cons.mp hpart with rfl | hpart
      · contradiction
      · exact List.mem_cons_of_mem _ (ih hpart hx)
    · obtain ⟨first, rest, hsplit, -⟩ := head_splitOn_prefix l sep
      rw [hsplit, List.modifyHead_cons] at hpart
      rcases List.mem_cons.mp hpart with rfl | hpart
      · rcases List.mem_cons.mp hx with rfl | hx
        · exact List.mem_cons_self
        · exact List.mem_cons_of_mem _ (ih (hsplit ▸ List.mem_cons_self) hx)
      · exact List.mem_cons_of_mem _ (ih (hsplit ▸ List.mem_cons_of_mem _ hpart) hx)

omit [DecidableEq α] in
/-- Where a character stands once, what it is preceded by in a part of the list is what it is
preceded by in the list. -/
theorem suffix_of_infix {name tail label rest : List α} {x : α} (hlabel : x ∉ label)
    (hrest : x ∉ rest) (h : name ++ x :: tail <:+: label ++ x :: rest) : name <:+ label := by
  obtain ⟨before, after, heq⟩ := h
  have hsame : label ++ x :: rest = (before ++ name) ++ x :: (tail ++ after) := by
    rw [← heq]
    simp
  exact ⟨before, ((List.append_cons_inj_of_notMem hlabel hrest).mp hsame).1.symm⟩

end Kerrighed.Common
