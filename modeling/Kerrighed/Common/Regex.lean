import Kerrighed.Common.Text

/-!
# Extended regular expressions

The expressions without repetition that `grep -E` is given. Matching an expression at a place of a
line leaves the rest of the line behind the match, and a line is found when the expression matches
at some place of it.
-/

namespace Kerrighed.Common

variable {α : Type*} [DecidableEq α]

/-- The extended regular expressions without repetition. -/
inductive Regex (α : Type*) where
  | text (chars : List α)
  | oneOf (chars : List α)
  | seq (first second : Regex α)
  | alt (first second : Regex α)
  | lineEnd
  deriving DecidableEq, Repr

namespace Regex

/-- The rests of a line behind the matches of an expression at its start. -/
def rests : Regex α → List α → List (List α)
  | text chars, line => if chars <+: line then [line.drop chars.length] else []
  | oneOf chars, line =>
    match line with
    | [] => []
    | c :: rest => if c ∈ chars then [rest] else []
  | seq first second, line => (first.rests line).flatMap second.rests
  | alt first second, line => first.rests line ++ second.rests line
  | lineEnd, line => if line = [] then [[]] else []

/-- Whether an expression matches at some place of a line. -/
def search (r : Regex α) (line : List α) : Bool := line.tails.any fun rest => r.rests rest ≠ []

/-- A text matches itself. -/
@[simp]
theorem mem_rests_text {chars line rest : List α} :
    rest ∈ (text chars).rests line ↔ line = chars ++ rest := by
  unfold rests
  constructor
  · intro hrest
    split at hrest
    · rename_i hbegins
      obtain ⟨behind, rfl⟩ := hbegins
      rw [List.drop_left, List.mem_singleton] at hrest
      rw [hrest]
    · contradiction
  · rintro rfl
    simp

/-- One of some characters matches a line that begins with such a character. -/
@[simp]
theorem mem_rests_oneOf {chars line rest : List α} :
    rest ∈ (oneOf chars).rests line ↔ ∃ c ∈ chars, line = c :: rest := by
  unfold rests
  cases line with
  | nil => simp
  | cons d behind =>
    by_cases hd : d ∈ chars
    · simp [hd, eq_comm]
    · simp only [hd, if_false, List.not_mem_nil, List.cons.injEq, false_iff]
      rintro ⟨c, hc, rfl, -⟩
      exact hd hc

/-- Two expressions in a row match where the second matches behind the first. -/
@[simp]
theorem mem_rests_seq {first second : Regex α} {line rest : List α} :
    rest ∈ (seq first second).rests line ↔
      ∃ middle ∈ first.rests line, rest ∈ second.rests middle :=
  List.mem_flatMap

/-- Either of two expressions matches. -/
@[simp]
theorem mem_rests_alt {first second : Regex α} {line rest : List α} :
    rest ∈ (alt first second).rests line ↔ rest ∈ first.rests line ∨ rest ∈ second.rests line :=
  List.mem_append

/-- The end of the line matches where nothing is left. -/
@[simp]
theorem mem_rests_lineEnd {line rest : List α} :
    rest ∈ lineEnd.rests line ↔ line = [] ∧ rest = [] := by
  unfold rests
  split <;> simp [*]

/-- A line is found when it has a place with a match. -/
theorem search_eq_true_iff {r : Regex α} {line : List α} :
    r.search line = true ↔ ∃ before place, line = before ++ place ∧ ∃ rest, rest ∈ r.rests place := by
  simp only [search, List.any_eq_true, List.mem_tails, decide_eq_true_eq]
  constructor
  · rintro ⟨place, ⟨before, rfl⟩, hmatch⟩
    exact ⟨before, place, rfl, List.exists_mem_of_ne_nil _ hmatch⟩
  · rintro ⟨before, place, rfl, rest, hrest⟩
    exact ⟨place, List.suffix_append before place, List.ne_nil_of_mem hrest⟩

end Regex

/-- `grep -E pattern` over named files. Of several files a line is shown behind the name of its
file. -/
def grepFiles (pattern : Regex Char) (files : List (List Char × List Char)) : List Char :=
  unlines (files.flatMap fun file =>
    ((lines file.2).filter pattern.search).map fun line =>
      if files.length ≤ 1 then line else file.1 ++ ':' :: line)

end Kerrighed.Common
