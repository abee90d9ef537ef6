import Kerrighed.Common.Text
import Kerrighed.Krgcapset.Main

/-!
# Saved and restored vectors

The tool shows each vector of a process as an octal numeral followed by the names of the raised
capabilities. The test library keeps the numeral of the inheritable effective vector, found by the
words in front of it, and gives it back to the option `-d` later.

The numeral is that of the vector read as an unsigned number. It begins with a zero, so it is read
in base eight again, and the conversion to `int` gives back a vector with the top bit set.
-/

namespace Kerrighed.Krgcapset

open Kerrighed.Common

/-- The numeral that the format `0%o` prints. -/
def octalText (v : BitVec 32) : List Char := '0' :: printOctal v.toNat

/-- The text printed so far and the columns counted on its last line. -/
structure Printed where
  charPrintedOnThisLine : ℕ
  text : List Char
  deriving DecidableEq, Repr

/-- One name, behind a comma, at the start of a line, or on a new line where the old one is full. -/
def printName (printed : Printed) (name : List Char) : Printed :=
  let charToPrint := name.length + 2
  if printed.charPrintedOnThisLine + charToPrint < 80 then
    if printed.charPrintedOnThisLine ≠ 8 then
      ⟨printed.charPrintedOnThisLine + (charToPrint + 2), printed.text ++ ", ".toList ++ name⟩
    else ⟨printed.charPrintedOnThisLine + charToPrint, printed.text ++ "\t".toList ++ name⟩
  else ⟨8 + charToPrint, printed.text ++ "\n\t".toList ++ name⟩

/-- The names of the raised capabilities, before the newline at the end. -/
def printNames (currentCapVector : BitVec 32) : Printed :=
  capText.zipIdx.foldl
    (fun printed cap =>
      if capRaised currentCapVector cap.2 then printName printed cap.1 else printed)
    ⟨8, []⟩

/-- The line or lines with the names of the raised capabilities. -/
def printCapability (currentCapVector : BitVec 32) : List Char :=
  (printNames currentCapVector).text ++ ['\n']

/-- The line with the title of a vector and its numeral. -/
def titleLine (title : List Char) (v : BitVec 32) : List Char := title ++ ':' :: ' ' :: octalText v

/-- What is printed for one vector: its title with the numeral, and its names. -/
def printVector (title : List Char) (v : BitVec 32) : List Char :=
  titleLine title v ++ '\n' :: printCapability v

/-- What the tool shows of the vectors of a process. -/
def printCapabilities (caps : KrgCap) : List Char :=
  printVector "Permitted Capabilities".toList caps.permitted ++
    (printVector "Effective Capabilities".toList caps.effective ++
      (printVector "Inheritable Permitted Capabilities".toList caps.inheritablePermitted ++
        printVector "Inheritable Effective Capabilities".toList caps.inheritableEffective))

/-- The title of the vector that the test library keeps. -/
def savedWords : List Char := "Inheritable Effective Capabilities".toList

/-- The text that the test library looks for and takes away. -/
def savedTitle : List Char := savedWords ++ [':', ' ']

/-- What the test library keeps of a shown text. -/
def savedVector (text : List Char) : List Char :=
  commandOutput (sedDelete savedTitle (grep savedTitle text))

/-- The number of a numeral is that of its vector, with nothing left behind it. -/
theorem strtol_octalText (v : BitVec 32) : strtol 0 (octalText v) = ((v.toNat : ℤ), []) := by
  have hbound : v.toNat < 2 ^ 32 := v.isLt
  exact strtol_octal (by unfold longMax; omega)

/-- As the value of a set option the numeral of a vector stands for that vector. -/
theorem optionValue_octalText (v old : BitVec 32) : optionValue (octalText v) old = v := by
  unfold optionValue
  rw [strtol_octalText]
  simp

/-- A numeral contains neither a newline nor a colon. -/
theorem notMem_octalText {c : Char} (hc : c.isDigit = false) (v : BitVec 32) :
    c ∉ octalText v := by
  intro hmem
  rcases List.mem_cons.mp hmem with rfl | hmem
  · contradiction
  · have hdigit : c.isDigit = true := Nat.isDigit_of_mem_toDigits (by omega) (by omega) hmem
    rw [hdigit] at hc
    contradiction

/-- One more name without a colon leaves the text without a colon. -/
theorem notMem_printName {printed : Printed} {name : List Char} (hprinted : ':' ∉ printed.text)
    (hname : ':' ∉ name) : ':' ∉ (printName printed name).text := by
  simp only [printName]
  split_ifs <;> simp [hprinted, hname]

/-- The names are printed without a colon. -/
theorem notMem_printNames (v : BitVec 32) : ':' ∉ (printNames v).text := by
  have hcaps : ∀ cap ∈ capText.zipIdx, ':' ∉ cap.1 := by decide
  have hstart : ':' ∉ (⟨8, []⟩ : Printed).text := List.not_mem_nil
  unfold printNames
  generalize (⟨8, []⟩ : Printed) = printed at hstart ⊢
  generalize capText.zipIdx = caps at hcaps ⊢
  induction caps generalizing printed with
  | nil => exact hstart
  | cons cap caps ih =>
    rw [List.foldl_cons]
    refine ih _ ?_ (fun c hc => hcaps c (List.mem_cons_of_mem _ hc))
    split
    · exact notMem_printName hstart (hcaps cap List.mem_cons_self)
    · exact hstart

/-- Words in front of a colon are found in the line of a title if they end the title. -/
theorem infix_titleLine_iff {words title : List Char} (hcolon : ':' ∉ title) (v : BitVec 32) :
    words ++ [':', ' '] <:+: titleLine title v ↔ words <:+ title := by
  have hnumeral : ':' ∉ ' ' :: octalText v :=
    List.not_mem_cons_of_ne_of_not_mem (by decide) (notMem_octalText rfl v)
  constructor
  · intro hfound
    exact suffix_of_infix hcolon hnumeral hfound
  · rintro ⟨before, rfl⟩
    exact ⟨before, octalText v, by simp [titleLine]⟩

/-- No line with names is found. -/
theorem filter_names (v : BitVec 32) :
    ((printNames v).text.splitOn '\n').filter (fun line => decide (savedTitle <:+: line)) = [] := by
  rw [List.filter_eq_nil_iff]
  intro line hline hfound
  have hcolon : ':' ∈ savedTitle := List.mem_append_right _ List.mem_cons_self
  have hmem : ':' ∈ line := (of_decide_eq_true hfound).subset hcolon
  exact notMem_printNames v (mem_of_mem_splitOn hline hmem)

/-- Of what is printed for one vector and what follows, the line of the title is found if the words
looked for end the title. -/
theorem filter_printVector {title : List Char} (htitle : '\n' ∉ title) (hcolon : ':' ∉ title)
    (v : BitVec 32) (rest : List Char) :
    (lines (printVector title v ++ rest)).filter (fun line => decide (savedTitle <:+: line)) =
      (if savedWords <:+ title then [titleLine title v] else []) ++
        (lines rest).filter fun line => decide (savedTitle <:+: line) := by
  have hline : '\n' ∉ titleLine title v := by
    simp [titleLine, htitle, notMem_octalText (show '\n'.isDigit = false from rfl)]
  have hsplit : lines (printVector title v ++ rest) =
      titleLine title v :: ((printNames v).text.splitOn '\n' ++ lines rest) := by
    rw [printVector, List.append_assoc, List.cons_append, lines_append_newline,
      splitOn_of_notMem hline, printCapability, List.append_assoc, List.singleton_append,
      List.singleton_append, lines_append_newline]
  rw [hsplit, List.filter_cons, List.filter_append, filter_names, List.nil_append]
  simp only [savedTitle, infix_titleLine_iff hcolon, decide_eq_true_eq]
  split <;> rfl

/-- Nothing is found in what is printed for a vector with another title. -/
theorem filter_other_vector {title : List Char} (htitle : '\n' ∉ title) (hcolon : ':' ∉ title)
    (hother : ¬ savedWords <:+ title) (v : BitVec 32) (rest : List Char) :
    (lines (printVector title v ++ rest)).filter (fun line => decide (savedTitle <:+: line)) =
      (lines rest).filter fun line => decide (savedTitle <:+: line) := by
  rw [filter_printVector htitle hcolon, if_neg hother, List.nil_append]

/-- The line of its title is found in what is printed for the inheritable effective vector. -/
theorem filter_saved_vector (v : BitVec 32) :
    (lines (printVector savedWords v)).filter (fun line => decide (savedTitle <:+: line)) =
      [titleLine savedWords v] := by
  have hsaved := filter_printVector (show '\n' ∉ savedWords by decide) (by decide) v []
  rwa [if_pos List.suffix_rfl, List.append_nil, lines_nil, List.filter_nil, List.append_nil]
    at hsaved

/-- The line that is found in what the tool shows. -/
theorem grep_printCapabilities (caps : KrgCap) :
    grep savedTitle (printCapabilities caps) =
      titleLine savedWords caps.inheritableEffective ++ ['\n'] := by
  unfold grep printCapabilities
  rw [filter_other_vector (by decide) (by decide) (by decide),
    filter_other_vector (by decide) (by decide) (by decide),
    filter_other_vector (by decide) (by decide) (by decide)]
  exact (congrArg unlines (filter_saved_vector _)).trans (unlines_singleton _)

/-- The test library keeps the numeral of the inheritable effective vector. -/
theorem savedVector_printCapabilities (caps : KrgCap) :
    savedVector (printCapabilities caps) = octalText caps.inheritableEffective := by
  have hnumeral : '\n' ∉ octalText caps.inheritableEffective := notMem_octalText rfl _
  have hline : '\n' ∉ titleLine savedWords caps.inheritableEffective := by
    have hwords : '\n' ∉ savedWords := by decide
    simp [titleLine, hwords, hnumeral]
  have hdelete : deleteFirst savedTitle (titleLine savedWords caps.inheritableEffective) =
      octalText caps.inheritableEffective := by
    have happend : titleLine savedWords caps.inheritableEffective =
        savedTitle ++ octalText caps.inheritableEffective := by
      simp [titleLine, savedTitle]
    rw [happend, deleteFirst_append (by decide)]
  unfold savedVector sedDelete
  rw [grep_printCapabilities, lines_append_newline, splitOn_of_notMem hline, lines_nil,
    List.append_nil, List.map_singleton, hdelete, unlines_singleton]
  exact commandOutput_line hnumeral

/-- The numeral shown for a vector is read as a number by each set option, which stores exactly
that vector in its own field, and it is what the test library keeps of the inheritable effective
vector. -/
theorem shown_vector_restored (v : BitVec 32) :
    (strtol 0 (octalText v)).2 = [] ∧
      (∀ caps changedCap rest,
        secondPass (('e', some (octalText v)) :: rest) (caps, changedCap) =
            secondPass rest ({ caps with effective := v }, true) ∧
          secondPass (('p', some (octalText v)) :: rest) (caps, changedCap) =
            secondPass rest ({ caps with permitted := v }, true) ∧
          secondPass (('i', some (octalText v)) :: rest) (caps, changedCap) =
            secondPass rest ({ caps with inheritablePermitted := v }, true) ∧
          secondPass (('d', some (octalText v)) :: rest) (caps, changedCap) =
            secondPass rest ({ caps with inheritableEffective := v }, true)) ∧
      ∀ caps : KrgCap, caps.inheritableEffective = v →
        savedVector (printCapabilities caps) = octalText v := by
  refine ⟨by rw [strtol_octalText], fun caps changedCap rest => ?_, fun caps hcaps => ?_⟩
  · simp [secondPass, optionValue_octalText]
  · rw [savedVector_printCapabilities, hcaps]

/-- The vector with all bits set is shown as thirteen characters. -/
example : octalText (BitVec.ofInt 32 (-1)) = "037777777777".toList := by decide

end Kerrighed.Krgcapset
