import Kerrighed.Common.CNumbers
import Kerrighed.Common.Text

/-!
# The description of a checkpoint

`checkpoint` writes a text file next to each checkpoint and `restart` reads the application
identifier back from it through a pipeline of `grep`, `tr` and `cut`. The functions below are
the text written to the file, the filters over it, and the first word of what they print.

The pipeline joins all lines that begin with `Identifier:`. The identifier is read back
exactly when the free text of the description brings in no second line of that kind.
-/

namespace Kerrighed.Tools.Description

open Kerrighed.Common

/-- The fields of `struct checkpoint_info` that the file records. -/
structure CheckpointInfo where
  appId : Int64
  chkptSn : Int32
  deriving DecidableEq, Repr

/-- The description file after the call, which appends to what the file held before. -/
def writeDescription (description : Option (List Char)) (info : CheckpointInfo) (date : Int64)
    (file : List Char) : List Char :=
  file ++ "Identifier: ".toList ++ printDecimal info.appId.toInt ++ "\n".toList ++
    "Version: ".toList ++ printDecimal info.chkptSn.toInt ++ "\n".toList ++
    "Description: ".toList ++ description.getD "No description".toList ++ "\n".toList ++
    "Date: ".toList ++ printDecimal date.toInt ++ "\n".toList

/-- A character that ends a word. -/
def endsWord (c : Char) : Bool := c ∈ [' ', '\r', '\n']

/-- The first word of the output of a command, read into a buffer of 1024 bytes that starts with
a NUL. It is not known when output fills the buffer without the end of a word. -/
def getReturnedWord (output : List Char) : Option (List Char) :=
  let buff := output.take 1024
  if output = [] then some []
  else if buff.any endsWord then some (buff.takeWhile (¬ endsWord ·)) else none

/-- The identifier read from the description file. -/
def getRootPid (file : List Char) : Option (List Char) :=
  getReturnedWord
    (cut ':' 2 (trDelete [' ', '\n'] (grepStart "Identifier:".toList file)))

/-- The word before the first newline. -/
theorem getReturnedWord_line {word : List Char} (rest : List Char)
    (hword : ∀ c ∈ word, endsWord c = false) (hlength : word.length < 1024) :
    getReturnedWord (word ++ '\n' :: rest) = some word := by
  have htake : (word ++ '\n' :: rest).take 1024 =
      word ++ '\n' :: rest.take (1024 - word.length - 1) := by
    rw [List.take_append, List.take_of_length_le (by omega)]
    congr 1
    obtain ⟨k, hk⟩ : ∃ k, 1024 - word.length = k + 1 := ⟨1023 - word.length, by omega⟩
    simp [hk]
  have hne : word ++ '\n' :: rest ≠ [] := by simp
  have hany : (word ++ '\n' :: rest.take (1024 - word.length - 1)).any endsWord = true := by
    simp [endsWord]
  rw [getReturnedWord, if_neg hne, htake, if_pos hany]
  congr 1
  rw [List.takeWhile_append_of_pos fun c hc => by simpa using hword c hc]
  simp [endsWord]

/-- A word that fills the buffer is not known to end. -/
theorem getReturnedWord_long {word : List Char} (rest : List Char)
    (hword : ∀ c ∈ word, endsWord c = false) (hlength : 1024 ≤ word.length) :
    getReturnedWord (word ++ '\n' :: rest) = none := by
  have hne : word ++ '\n' :: rest ≠ [] := by simp
  have hany : (word.take 1024).any endsWord = false := by
    rw [List.any_eq_false]
    intro c hc
    rw [hword c (List.mem_of_mem_take hc)]
    exact Bool.false_ne_true
  rw [getReturnedWord, if_neg hne, List.take_append_of_le_length hlength, hany]
  rfl

/-- A field name with a decimal text behind it is one line. -/
theorem splitOn_decimal {name : List Char} (hname : '\n' ∉ name) (n : ℤ) :
    (name ++ printDecimal n).splitOn '\n' = [name ++ printDecimal n] := by
  refine splitOn_of_notMem fun h => ?_
  rcases List.mem_append.mp h with h | h
  · exact hname h
  · exact notMem_printDecimal n (by decide) (by decide) h

/-- The lines of a fresh description file: four fields, of which the description may be several
lines. -/
theorem lines_writeDescription (description : Option (List Char)) (info : CheckpointInfo)
    (date : Int64) :
    lines (writeDescription description info date []) =
      ("Identifier: ".toList ++ printDecimal info.appId.toInt) ::
        ("Version: ".toList ++ printDecimal info.chkptSn.toInt) ::
        (("Description: ".toList ++ description.getD "No description".toList).splitOn '\n' ++
          ["Date: ".toList ++ printDecimal date.toInt]) := by
  have htext : writeDescription description info date [] =
      ("Identifier: ".toList ++ printDecimal info.appId.toInt) ++ '\n' ::
        (("Version: ".toList ++ printDecimal info.chkptSn.toInt) ++ '\n' ::
          (("Description: ".toList ++ description.getD "No description".toList) ++ '\n' ::
            (("Date: ".toList ++ printDecimal date.toInt) ++ '\n' :: []))) := by
    have hnewline : "\n".toList = ['\n'] := rfl
    simp only [writeDescription, hnewline, List.append_assoc, List.nil_append, List.cons_append]
  rw [htext, lines_append_newline, lines_append_newline, lines_append_newline,
    lines_append_newline, splitOn_decimal (by decide), splitOn_decimal (by decide),
    splitOn_decimal (by decide), lines_nil, List.append_nil]
  rfl

/-- The lines that `grep` lets through: the identifier, and the lines of the description behind
its first one that begin like it. -/
theorem grep_lines (description : Option (List Char)) (info : CheckpointInfo) (date : Int64) :
    (lines (writeDescription description info date [])).filter
        ("Identifier:".toList.isPrefixOf ·) =
      ("Identifier: ".toList ++ printDecimal info.appId.toInt) ::
        ((description.getD "No description".toList).splitOn '\n').tail.filter
          ("Identifier:".toList.isPrefixOf ·) := by
  obtain ⟨first, rest, hparts, -⟩ :=
    head_splitOn_prefix (description.getD "No description".toList) '\n'
  rw [lines_writeDescription, splitOn_append_of_notMem (by decide), hparts, List.modifyHead_cons,
    List.filter_cons_of_pos rfl, List.filter_cons_of_neg (by simp), List.filter_append,
    List.filter_cons_of_neg (by simp), List.filter_cons_of_neg (by simp), List.filter_nil,
    List.append_nil, List.tail_cons]

/-- The second field of the joined lines is what stands between the first two colons. -/
theorem cut_second (word tail : List Char) (hword : ':' ∉ word)
    (htail : tail = [] ∨ ∃ rest, tail = ':' :: rest)
    (hline : '\n' ∉ "Identifier:".toList ++ word ++ tail) :
    cut ':' 2 ("Identifier:".toList ++ word ++ tail) = word ++ ['\n'] := by
  have hsplit : ("Identifier:".toList ++ word ++ tail).splitOn ':' =
      "Identifier".toList :: (word ++ tail).splitOn ':' := by
    have htext : "Identifier:".toList ++ word ++ tail =
        "Identifier".toList ++ ':' :: (word ++ tail) := by simp
    rw [htext, splitOn_append_cons, splitOn_of_notMem (by decide)]
    rfl
  have hfields : ∃ others, (word ++ tail).splitOn ':' = word :: others := by
    rcases htail with rfl | ⟨rest, rfl⟩
    · exact ⟨[], by rw [List.append_nil, splitOn_of_notMem hword]⟩
    · exact ⟨rest.splitOn ':', by rw [splitOn_append_cons, splitOn_of_notMem hword]; rfl⟩
  obtain ⟨others, hothers⟩ := hfields
  rw [cut, lines_of_notMem (by simp) hline, List.map_singleton, field, hsplit, hothers]
  simp [unlines]

/-- Without blanks and newlines, a line is joined to the ones behind it. -/
theorem trDelete_unlines_cons (line : List Char) (ls : List (List Char)) :
    trDelete [' ', '\n'] (unlines (line :: ls)) =
      trDelete [' ', '\n'] line ++ trDelete [' ', '\n'] (unlines ls) := by
  simp [trDelete, unlines, List.filter_append]

/-- No newline is left by the filter. -/
theorem newline_notMem_trDelete (text : List Char) : '\n' ∉ trDelete [' ', '\n'] text := by
  simp [trDelete]

/-- The identifier line loses its blank. -/
theorem trDelete_identifier (n : ℤ) :
    trDelete [' ', '\n'] ("Identifier: ".toList ++ printDecimal n) =
      "Identifier:".toList ++ printDecimal n := by
  have hkeep : (printDecimal n).filter (· ∉ [' ', '\n']) = printDecimal n := by
    refine List.filter_eq_self.mpr fun c hc => ?_
    have hblank : c ≠ ' ' := fun h => notMem_printDecimal n (by decide) (by decide) (h ▸ hc)
    have hnewline : c ≠ '\n' := fun h => notMem_printDecimal n (by decide) (by decide) (h ▸ hc)
    simp [hblank, hnewline]
  rw [trDelete, List.filter_append, hkeep]
  rfl

/-- A decimal text of 64 bits is short and ends no word. -/
theorem decimal_word (n : Int64) :
    (printDecimal n.toInt).length ≤ 20 ∧ ∀ c ∈ printDecimal n.toInt, endsWord c = false := by
  constructor
  · have hdigits : (Nat.toDigits 10 n.toInt.natAbs).length ≤ 19 := by
      rw [Nat.length_toDigits_le_iff (by decide) (by decide)]
      have hlower := Int64.le_toInt n
      have hupper := Int64.toInt_lt n
      omega
    rw [printDecimal, List.length_append]
    split
    · simp only [List.length_singleton]
      omega
    · simp only [List.length_nil]
      omega
  · intro c hc
    rcases mem_printDecimal hc with rfl | h
    · decide
    · rw [endsWord, decide_eq_false_iff_not]
      intro hmem
      simp only [List.mem_cons, List.not_mem_nil, or_false] at hmem
      rcases hmem with rfl | rfl | rfl <;> contradiction

/-- A decimal text of 64 bits with the name of the field behind it is short and ends no word. -/
theorem decimal_identifier_word (n : Int64) :
    (printDecimal n.toInt ++ "Identifier".toList).length ≤ 30 ∧
      ∀ c ∈ printDecimal n.toInt ++ "Identifier".toList, endsWord c = false := by
  obtain ⟨hlength, hword⟩ := decimal_word n
  constructor
  · have hname : "Identifier".toList.length = 10 := rfl
    rw [List.length_append, hname]
    omega
  · intro c hc
    rcases List.mem_append.mp hc with h | h
    · exact hword c h
    · have hname : "Identifier".toList.all (!endsWord ·) = true := by decide
      simpa using List.all_eq_true.mp hname c h

/-- The word read when no line but the first one is let through is the identifier, and otherwise
it is the identifier with the name of the field behind it. -/
theorem getRootPid_eq (description : Option (List Char)) (info : CheckpointInfo) (date : Int64) :
    getRootPid (writeDescription description info date []) =
      if (((description.getD "No description".toList).splitOn '\n').tail.filter
          ("Identifier:".toList.isPrefixOf ·)) = [] then
        some (printDecimal info.appId.toInt)
      else some (printDecimal info.appId.toInt ++ "Identifier".toList) := by
  have hcolon : ':' ∉ printDecimal info.appId.toInt := notMem_printDecimal _ (by decide) (by decide)
  rw [getRootPid, grepStart, grep_lines, trDelete_unlines_cons, trDelete_identifier]
  cases hmatch : ((description.getD "No description".toList).splitOn '\n').tail.filter
      ("Identifier:".toList.isPrefixOf ·) with
  | nil =>
    have hline : '\n' ∉ "Identifier:".toList ++ printDecimal info.appId.toInt ++ [] := by
      rw [List.append_nil, ← trDelete_identifier]
      exact newline_notMem_trDelete _
    have hrest : trDelete [' ', '\n'] (unlines []) = [] := rfl
    obtain ⟨hlength, hword⟩ := decimal_word info.appId
    rw [hrest, cut_second _ [] hcolon (.inl rfl) hline, if_pos rfl]
    exact getReturnedWord_line [] hword (by omega)
  | cons line others =>
    have hmem : line ∈ ((description.getD "No description".toList).splitOn '\n').tail.filter
        ("Identifier:".toList.isPrefixOf ·) := by
      rw [hmatch]
      exact List.mem_cons_self
    obtain ⟨rest, rfl⟩ := List.isPrefixOf_iff_prefix.mp (List.mem_filter.mp hmem).2
    have hrest : trDelete [' ', '\n'] (unlines (("Identifier:".toList ++ rest) :: others)) =
        "Identifier".toList ++
          ':' :: (trDelete [' ', '\n'] rest ++ trDelete [' ', '\n'] (unlines others)) := by
      rw [trDelete_unlines_cons, trDelete, List.filter_append]
      rfl
    have hline : '\n' ∉ "Identifier:".toList ++ printDecimal info.appId.toInt ++
        trDelete [' ', '\n'] (unlines (("Identifier:".toList ++ rest) :: others)) := by
      rw [← trDelete_identifier, List.mem_append, not_or]
      exact ⟨newline_notMem_trDelete _, newline_notMem_trDelete _⟩
    have hcolon' : ':' ∉ printDecimal info.appId.toInt ++ "Identifier".toList := by
      rw [List.mem_append, not_or]
      exact ⟨hcolon, by decide⟩
    rw [hrest, ← List.append_assoc, List.append_assoc _ (printDecimal _)] at hline ⊢
    rw [cut_second _ _ hcolon' (.inr ⟨_, rfl⟩) hline, if_neg (List.cons_ne_nil _ _)]
    obtain ⟨hlength, hword⟩ := decimal_identifier_word info.appId
    exact getReturnedWord_line [] hword (by omega)

/-- The identifier is read back exactly when no line of the description behind its first one
begins like the identifier line. -/
theorem getRootPid_roundtrip_iff (description : Option (List Char)) (info : CheckpointInfo)
    (date : Int64) :
    getRootPid (writeDescription description info date []) = some (printDecimal info.appId.toInt) ↔
      ¬ ∃ before after, description.getD "No description".toList =
        before ++ '\n' :: ("Identifier:".toList ++ after) := by
  rw [getRootPid_eq, ← exists_mem_tail_splitOn (by decide)]
  have hnil : ((description.getD "No description".toList).splitOn '\n').tail.filter
      ("Identifier:".toList.isPrefixOf ·) = [] ↔
      ¬ ∃ part ∈ ((description.getD "No description".toList).splitOn '\n').tail,
        "Identifier:".toList <+: part := by
    rw [List.filter_eq_nil_iff]
    simp only [List.isPrefixOf_iff_prefix, not_exists, not_and]
  rw [← hnil]
  split
  · rename_i hnone
    exact iff_of_true rfl hnone
  · rename_i hsome
    refine iff_of_false (fun h => ?_) hsome
    simpa using Option.some.inj h

/-- A description whose second line looks like an identifier line. -/
theorem second_identifier_line_misread :
    getRootPid (writeDescription (some "first try\nIdentifier: 7".toList) ⟨42, 1⟩ 0 []) =
      some "42Identifier".toList := by
  decide

end Kerrighed.Tools.Description
