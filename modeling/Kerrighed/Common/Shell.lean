import Mathlib.Data.List.Basic

/-!
# Scripts that stop at errors

A function of a script is a list of lines, and a line is a command or a chain of commands joined by
`&&`. Under `set -e` the shell stops at a command that fails at the end of its line. Where others are
behind it in the chain only the chain ends, unless the line is the last one of the function: then the
function has failed, and its call stops the script.

Two rules describe a script in a state of which little is known. Where each of its commands would
succeed it succeeds, and where a line of one command must fail, whatever the lines before it do, it
stops there.
-/

namespace Kerrighed.Common

variable {S T C : Type*}

/-- How a line ends. -/
inductive LineEnd where
  | succeeded
  | stops
  | skipped
  deriving DecidableEq, Repr

/-- A command on its own, or a chain. -/
def runLine (exec : C → S → Bool × S) : List C → S → LineEnd × S
  | [], s => (.succeeded, s)
  | c :: rest, s =>
    let r := exec c s
    if r.1 then runLine exec rest r.2 else (if rest = [] then .stops else .skipped, r.2)

/-- The lines of a function: whether the script goes on behind its call. -/
def runFunction (exec : C → S → Bool × S) : List (List C) → S → Bool × S
  | [], s => (true, s)
  | line :: rest, s =>
    let r := runLine exec line s
    if r.1 = .succeeded ∨ r.1 = .skipped ∧ rest ≠ [] then runFunction exec rest r.2
    else (false, r.2)

/-- The calls of functions: whether the script reaches its end. -/
def runScript (exec : C → S → Bool × S) : List (List (List C)) → S → Bool × S
  | [], s => (true, s)
  | f :: rest, s =>
    let r := runFunction exec f s
    if r.1 then runScript exec rest r.2 else (false, r.2)

/-- The commands one after the other, as long as they succeed. -/
def runAll (exec : C → S → Bool × S) : List C → S → Option S
  | [], s => some s
  | c :: rest, s => if (exec c s).1 then runAll exec rest (exec c s).2 else none

variable {exec : C → S → Bool × S} {s t : S}

/-- Commands that succeed are followed by those behind them. -/
theorem runAll_append {before after : List C} :
    runAll exec (before ++ after) s = (runAll exec before s).bind (runAll exec after) := by
  induction before generalizing s with
  | nil => rfl
  | cons c before ih =>
    rw [List.cons_append, runAll, runAll]
    split
    · exact ih
    · rfl

/-- A line succeeds when its commands do. -/
theorem runLine_of_runAll {line : List C} (h : runAll exec line s = some t) :
    runLine exec line s = (.succeeded, t) := by
  induction line generalizing s with
  | nil => rw [runLine, Option.some.inj h]
  | cons c rest ih =>
    rw [runAll] at h
    split at h
    · rename_i hc
      rw [runLine]
      simp only [hc, if_true, ih h]
    · contradiction

/-- A function succeeds when its commands do. -/
theorem runFunction_of_runAll {lines : List (List C)} (h : runAll exec lines.flatten s = some t) :
    runFunction exec lines s = (true, t) := by
  induction lines generalizing s with
  | nil => rw [runFunction, Option.some.inj h]
  | cons line rest ih =>
    rw [List.flatten_cons, runAll_append] at h
    obtain ⟨u, hline, hrest⟩ := Option.bind_eq_some_iff.mp h
    rw [runFunction, runLine_of_runAll hline]
    simp only [true_or, if_true, ih hrest]

/-- A script succeeds when its commands do. -/
theorem runScript_of_runAll {script : List (List (List C))}
    (h : runAll exec script.flatten.flatten s = some t) : runScript exec script s = (true, t) := by
  induction script generalizing s with
  | nil => rw [runScript, Option.some.inj h]
  | cons f rest ih =>
    rw [List.flatten_cons, List.flatten_append, runAll_append] at h
    obtain ⟨u, hf, hrest⟩ := Option.bind_eq_some_iff.mp h
    rw [runScript, runFunction_of_runAll hf]
    simp only [if_true, ih hrest]

/-- Where a model of the system lets all commands succeed, they succeed, as long as each command that
succeeds in the model succeeds and keeps the relation between the two. -/
theorem runAll_of_model {model : C → T → Bool × T} {R : S → T → Prop}
    (hstep : ∀ c s m, R s m → (model c m).1 = true →
      (exec c s).1 = true ∧ R (exec c s).2 (model c m).2)
    {commands : List C} {m m' : T} (hrel : R s m) (h : runAll model commands m = some m') :
    ∃ t, runAll exec commands s = some t ∧ R t m' := by
  induction commands generalizing s m with
  | nil => exact ⟨s, rfl, Option.some.inj h ▸ hrel⟩
  | cons c rest ih =>
    rw [runAll] at h
    split at h
    · rename_i hc
      obtain ⟨hsucceeds, hkept⟩ := hstep c s m hrel hc
      rw [runAll, if_pos hsucceeds]
      exact ih hkept h
    · contradiction

/-- What each command of a line keeps, the line keeps. -/
theorem runLine_keeps {P : S → Prop} {line : List C} (hkeep : ∀ c ∈ line, ∀ s, P s → P (exec c s).2)
    (h : P s) : P (runLine exec line s).2 := by
  induction line generalizing s with
  | nil => exact h
  | cons c rest ih =>
    have hc := hkeep c List.mem_cons_self s h
    rw [runLine]
    split
    · exact ih (fun d hd => hkeep d (List.mem_cons_of_mem c hd)) hc
    · exact hc

/-- A function stops at the latest at a line of one command that must fail. -/
theorem runFunction_blocked {P : S → Prop} {before after : List (List C)} {c : C}
    (hkeep : ∀ line ∈ before, ∀ d ∈ line, ∀ s, P s → P (exec d s).2)
    (hfail : ∀ s, P s → (exec c s).1 = false ∧ P (exec c s).2) (h : P s) :
    (runFunction exec (before ++ [c] :: after) s).1 = false ∧
      P (runFunction exec (before ++ [c] :: after) s).2 := by
  induction before generalizing s with
  | nil =>
    obtain ⟨hc, hkept⟩ := hfail s h
    simp [runFunction, runLine, hc, hkept]
  | cons line before ih =>
    have hline := runLine_keeps (hkeep line List.mem_cons_self) h
    rw [List.cons_append, runFunction]
    split
    · exact ih (fun l hl => hkeep l (List.mem_cons_of_mem line hl)) hline
    · exact ⟨rfl, hline⟩

/-- A script stops when its first function does. -/
theorem runScript_blocked {P : S → Prop} {f : List (List C)} {rest : List (List (List C))}
    (h : (runFunction exec f s).1 = false ∧ P (runFunction exec f s).2) :
    (runScript exec (f :: rest) s).1 = false ∧ P (runScript exec (f :: rest) s).2 := by
  simp only [runScript, h.1, Bool.false_eq_true, if_false, true_and]
  exact h.2

end Kerrighed.Common
