import Mathlib.Data.List.Basic
import Mathlib.Tactic.ByContra

/-!
# Finite runs of a labelled step function

A system is a partial step function: `step s l` is the state after the label `l`, and
`none` when `l` cannot happen in `s`. Every choice the environment makes (the outcome of
a system call, which thread moves next) is part of the label, so a list of labels fixes
a run.

`Along` says that every step a run takes meets a condition on the state before it, and
`Throughout` that every state a run reaches has a property. The last rule turns two step
lemmas into an exact characterization of the runs whose states all have the property.
-/

namespace Kerrighed.Common

variable {S L : Type*}

/-- Take the labels in order, stopping with `none` at the first one that cannot happen. -/
def run (step : S → L → Option S) : S → List L → Option S
  | s, [] => some s
  | s, l :: rest => (step s l).bind fun t => run step t rest

/-- Every step taken along the labels meets the condition in the state before it. -/
def Along (step : S → L → Option S) (cond : S → L → Prop) : S → List L → Prop
  | _, [] => True
  | s, l :: rest =>
    match step s l with
    | none => True
    | some t => cond s l ∧ Along step cond t rest

/-- The property holds in every state reached along the labels, the first one included. -/
def Throughout (step : S → L → Option S) (P : S → Prop) : S → List L → Prop
  | s, [] => P s
  | s, l :: rest =>
    P s ∧
      match step s l with
      | none => True
      | some t => Throughout step P t rest

instance Along.decidable (step : S → L → Option S) (cond : S → L → Prop)
    [∀ s l, Decidable (cond s l)] : ∀ s labels, Decidable (Along step cond s labels)
  | _, [] => inferInstanceAs (Decidable True)
  | s, l :: rest =>
    match h : step s l with
    | none => isTrue (by simp [Along, h])
    | some t =>
      have := Along.decidable step cond t rest
      decidable_of_iff (cond s l ∧ Along step cond t rest) (by simp [Along, h])

instance Throughout.decidable (step : S → L → Option S) (P : S → Prop)
    [DecidablePred P] : ∀ s labels, Decidable (Throughout step P s labels)
  | s, [] => inferInstanceAs (Decidable (P s))
  | s, l :: rest =>
    match h : step s l with
    | none => decidable_of_iff (P s) (by simp [Throughout, h])
    | some t =>
      have := Throughout.decidable step P t rest
      decidable_of_iff (P s ∧ Throughout step P t rest) (by simp [Throughout, h])

variable {step : S → L → Option S} {cond : S → L → Prop} {P Q inv : S → Prop}

/-- A run whose first label happens continues in the state after it. -/
theorem along_cons {s t : S} {l : L} {rest : List L} (hstep : step s l = some t) :
    Along step cond s (l :: rest) ↔ cond s l ∧ Along step cond t rest := by
  simp only [Along, hstep]

/-- The states of a run are its first state and those reached after the first label. -/
theorem throughout_cons {s t : S} {l : L} {rest : List L} (hstep : step s l = some t) :
    Throughout step P s (l :: rest) ↔ P s ∧ Throughout step P t rest := by
  simp only [Throughout, hstep]

/-- A label that cannot happen ends the run. -/
theorem along_cons_none {s : S} {l : L} {rest : List L} (hstep : step s l = none) :
    Along step cond s (l :: rest) := by
  simp only [Along, hstep]

/-- Two runs one after the other are a run. -/
theorem run_append {s t : S} {labels more : List L} (h : run step s labels = some t) :
    run step s (labels ++ more) = run step t more := by
  induction labels generalizing s with
  | nil => exact Option.some.inj h ▸ rfl
  | cons l rest ih =>
    obtain ⟨u, hstep, hrest⟩ := Option.bind_eq_some_iff.mp h
    rw [List.cons_append, run, hstep, Option.bind_some, ih hrest]

/-- The first state of a run is one of the states reached. -/
theorem Throughout.start {s : S} {labels : List L} (h : Throughout step P s labels) : P s := by
  cases labels with
  | nil => exact h
  | cons l rest => exact h.1

/-- The last state of a run is one of the states reached. -/
theorem Throughout.finish {s t : S} {labels : List L} (h : Throughout step P s labels)
    (hrun : run step s labels = some t) : P t := by
  induction labels generalizing s with
  | nil => exact Option.some.inj hrun ▸ h
  | cons l rest ih =>
    obtain ⟨u, hstep, hrest⟩ := Option.bind_eq_some_iff.mp hrun
    exact ih ((throughout_cons hstep).mp h).2 hrest

/-- A property that follows from another one along a run follows in every state reached. -/
theorem Throughout.mono {s : S} {labels : List L} (h : Throughout step P s labels)
    (himp : ∀ s, P s → Q s) : Throughout step Q s labels := by
  induction labels generalizing s with
  | nil => exact himp s h
  | cons l rest ih =>
    refine ⟨himp s h.1, ?_⟩
    cases hstep : step s l with
    | none => trivial
    | some t => exact ih ((throughout_cons hstep).mp h).2

/-- An invariant kept by every step that meets the condition holds throughout such a run. -/
theorem throughout_of_along
    (hkeep : ∀ s l t, inv s → cond s l → step s l = some t → inv t)
    {s : S} (hs : inv s) (labels : List L) (halong : Along step cond s labels) :
    Throughout step inv s labels := by
  induction labels generalizing s with
  | nil => exact hs
  | cons l rest ih =>
    refine ⟨hs, ?_⟩
    cases hstep : step s l with
    | none => trivial
    | some t =>
      obtain ⟨hcond, hrest⟩ := (along_cons hstep).mp halong
      exact ih (hkeep s l t hs hcond hstep) hrest

/-- An invariant kept by every step holds throughout every run. -/
theorem throughout_of_step (hkeep : ∀ s l t, inv s → step s l = some t → inv t)
    {s : S} (hs : inv s) (labels : List L) : Throughout step inv s labels := by
  have htrue : Along step (fun _ _ => True) s labels := by
    induction labels generalizing s with
    | nil => trivial
    | cons l rest ih =>
      cases hstep : step s l with
      | none => exact along_cons_none hstep
      | some t => exact (along_cons hstep).mpr ⟨trivial, ih (hkeep s l t hs hstep)⟩
  exact throughout_of_along (fun s l t hs _ hstep => hkeep s l t hs hstep) hs labels htrue

/-- The exact rule: when every step that meets the condition keeps the invariant, and every
step that does not meet it leads to a state without the property, a run has the property
throughout exactly when all its steps meet the condition. -/
theorem throughout_iff_along (inv : S → Prop) (hP : ∀ s, inv s → P s)
    (hkeep : ∀ s l t, inv s → cond s l → step s l = some t → inv t)
    (hbreak : ∀ s l t, inv s → ¬ cond s l → step s l = some t → ¬ P t)
    {s : S} (hs : inv s) (labels : List L) :
    Throughout step P s labels ↔ Along step cond s labels := by
  constructor
  · intro hall
    induction labels generalizing s with
    | nil => trivial
    | cons l rest ih =>
      cases hstep : step s l with
      | none => exact along_cons_none hstep
      | some t =>
        obtain ⟨-, hrest⟩ := (throughout_cons hstep).mp hall
        have hcond : cond s l := by
          by_contra hnot
          exact hbreak s l t hs hnot hstep hrest.start
        exact (along_cons hstep).mpr ⟨hcond, ih (hkeep s l t hs hcond hstep) hrest⟩
  · intro halong
    exact (throughout_of_along hkeep hs labels halong).mono hP

end Kerrighed.Common
