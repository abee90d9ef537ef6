import Kerrighed.Common.Runs

/-!
# Work bounds for runs of a labelled step function

Some labels are work that the system does by itself, the others are requests from outside. When
every step of work lowers a potential and every request raises it by at most a constant, a run
has at most that constant times as many steps of work as it has requests.

A state is exhausted when no label of a kind can happen in it. With a potential that the labels of
the kind lower, every state leads to an exhausted one.
-/

namespace Kerrighed.Common

variable {S L : Type*} {step : S → L → Option S} {cond : S → L → Prop}

/-- The steps of work in a run are paid for by the potential and by what the requests add to it. -/
theorem work_le (inv : S → Prop) (potential : S → ℕ) (work : L → Bool) (price : ℕ)
    (hkeep : ∀ s l t, inv s → step s l = some t → inv t)
    (hlower : ∀ s l t, inv s → work l = true → step s l = some t → potential t < potential s)
    (hraise : ∀ s l t, inv s → work l = false → step s l = some t →
      potential t ≤ potential s + price)
    {s t : S} (hs : inv s) {labels : List L} (hrun : run step s labels = some t) :
    labels.countP work + potential t ≤ potential s + price * labels.countP (!work ·) := by
  induction labels generalizing s with
  | nil =>
    obtain rfl := Option.some.inj hrun
    simp
  | cons l rest ih =>
    obtain ⟨u, hstep, hrest⟩ := Option.bind_eq_some_iff.mp hrun
    have htail := ih (hkeep s l u hs hstep) hrest
    cases hwork : work l with
    | true =>
      have hl := hlower s l u hs hwork hstep
      simp only [List.countP_cons, hwork, Bool.not_true, Bool.false_eq_true, if_true, if_false,
        Nat.add_zero]
      omega
    | false =>
      have hl := hraise s l u hs hwork hstep
      simp only [List.countP_cons, hwork, Bool.not_false, Bool.false_eq_true, if_true, if_false,
        Nat.mul_add]
      omega

/-- No label that meets the condition can happen. -/
def Exhausted (step : S → L → Option S) (cond : S → L → Prop) (s : S) : Prop :=
  ∀ l, cond s l → step s l = none

/-- When the steps that meet the condition keep an invariant and lower the potential, they lead from
every state of the invariant to an exhausted one. -/
theorem exists_exhausted (inv : S → Prop) (potential : S → ℕ)
    (hkeep : ∀ s l t, inv s → cond s l → step s l = some t → inv t)
    (hlower : ∀ s l t, inv s → cond s l → step s l = some t → potential t < potential s)
    {s : S} (hs : inv s) :
    ∃ labels t, run step s labels = some t ∧ Along step cond s labels ∧ inv t ∧
      Exhausted step cond t := by
  induction hn : potential s using Nat.strongRecOn generalizing s with
  | ind n ih =>
    by_cases hdone : Exhausted step cond s
    · exact ⟨[], s, rfl, trivial, hs, hdone⟩
    · simp only [Exhausted, not_forall] at hdone
      obtain ⟨l, hcond, hstep⟩ := hdone
      obtain ⟨u, hu⟩ := Option.ne_none_iff_exists'.mp hstep
      have hlt : potential u < n := hn ▸ hlower s l u hs hcond hu
      obtain ⟨labels, t, hrun, halong, hrest⟩ := ih _ hlt (hkeep s l u hs hcond hu) rfl
      refine ⟨l :: labels, t, ?_, (along_cons hu).mpr ⟨hcond, halong⟩, hrest⟩
      rw [run, hu]
      exact hrun

end Kerrighed.Common
