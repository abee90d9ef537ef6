import Mathlib.Data.Int.Basic
import Mathlib.Data.List.Basic

/-!
# Waiting for an application in the foreground

`restart` and `krgcr-run` can stay in the foreground until the application ends. Both install a
handler that relays signals to it, so their `wait` may be interrupted before the child has
terminated. The two parents below consume the results of the successive `wait` calls.

`wait` reports an interruption by the value -1, but `restart` expects the negated error number
and `krgcr-run` does not look at the value at all. Each supervises its child exactly when no
interruption comes before the termination.
-/

namespace Kerrighed.Tools.Supervision

/-- `EINTR`. -/
def eintr : ℤ := 4

/-- A result of `wait`: it was interrupted by a signal, or a child has terminated. -/
inductive WaitResult where
  | interrupted
  | terminated (child status : ℤ)
  deriving DecidableEq, Repr

/-- The value that `wait` returns. -/
def WaitResult.ret : WaitResult → ℤ
  | .interrupted => -1
  | .terminated child _ => child

/-- The variable behind the argument of `wait`, which only a termination writes. -/
def WaitResult.store : WaitResult → Option ℤ → Option ℤ
  | .interrupted, exitStatus => exitStatus
  | .terminated _ status, _ => some status

/-- How a parent ends. The exit is indeterminate when it depends on a variable never written. -/
inductive Exit where
  | success
  | failure
  | indeterminate
  deriving DecidableEq, Repr

/-- The test `if (exit_status) exit(EXIT_FAILURE)` at the end. -/
def Exit.ofStatus : Option ℤ → Exit
  | none => .indeterminate
  | some status => if status ≠ 0 then .failure else .success

/-- The end of a parent, and the number of results it has consumed. -/
structure Ended where
  exit : Exit
  waits : ℕ
  deriving DecidableEq, Repr

/-- The loop of `wait_application_exits`, after some results and with the status variable. -/
def waitLoop (exitStatus : Option ℤ) (waits : ℕ) : List WaitResult → Option Ended
  | [] => none
  | w :: rest =>
    let child := w.ret
    let exitStatus := w.store exitStatus
    if child ≤ 0 ∧ child ≠ -eintr then some ⟨.failure, waits + 1⟩
    else if child = -eintr then waitLoop exitStatus (waits + 1) rest
    else some ⟨.ofStatus exitStatus, waits + 1⟩

/-- The foreground parent of `restart`, or `none` while it waits. -/
def waitApplicationExits (results : List WaitResult) : Option Ended := waitLoop none 0 results

/-- The foreground parent of `krgcr-run`, which waits once. -/
def krgcrRunParent : List WaitResult → Option Ended
  | [] => none
  | w :: _ => some ⟨.ofStatus (w.store none), 1⟩

/-- The parent waits through the interruptions and ends with the termination behind them, with
failure exactly when the status is not 0. -/
def Supervises (parent : List WaitResult → Option Ended) (interruptions : ℕ) (child status : ℤ) :
    Prop :=
  (∀ k ≤ interruptions, parent (List.replicate k .interrupted) = none) ∧
    parent (List.replicate interruptions .interrupted ++ [.terminated child status]) =
      some ⟨if status ≠ 0 then .failure else .success, interruptions + 1⟩

/-- The loop takes the first result for the end, whatever it is: the value it would wait again
for is none that `wait` returns. -/
theorem waitApplicationExits_cons {w : WaitResult} (rest : List WaitResult)
    (hw : ∀ child status, w = .terminated child status → 0 < child) :
    waitApplicationExits (w :: rest) =
      some ⟨match w with
        | .interrupted => .failure
        | .terminated _ status => .ofStatus (some status), 1⟩ := by
  cases w with
  | interrupted => rfl
  | terminated child status =>
    have hchild := hw child status rfl
    have hwait : ¬ child ≤ 0 := by omega
    have hagain : child ≠ -eintr := by
      rw [eintr]
      omega
    simp [waitApplicationExits, waitLoop, WaitResult.ret, WaitResult.store, hwait, hagain]

/-- A parent that ends with the first result supervises at most children without an
interruption. -/
theorem not_supervises_of_ends {parent : List WaitResult → Option Ended} {interruptions : ℕ}
    {child status : ℤ} (hends : parent [.interrupted] ≠ none)
    (h : Supervises parent interruptions child status) : interruptions = 0 := by
  by_contra hne
  exact hends (h.1 1 (by omega))

/-- Both foreground parents supervise their child exactly when no interruption comes before its
termination. -/
theorem foreground_supervises_iff (interruptions : ℕ) {child : ℤ} (hchild : 0 < child)
    (status : ℤ) :
    (Supervises waitApplicationExits interruptions child status ↔ interruptions = 0) ∧
      (Supervises krgcrRunParent interruptions child status ↔ interruptions = 0) := by
  constructor
  · refine ⟨not_supervises_of_ends (by decide), ?_⟩
    rintro rfl
    refine ⟨fun k hk => ?_, ?_⟩
    · rw [Nat.le_zero.mp hk]
      rfl
    · rw [List.replicate_zero, List.nil_append, waitApplicationExits_cons]
      · rfl
      · rintro _ _ h
        cases h
        exact hchild
  · refine ⟨not_supervises_of_ends (by decide), ?_⟩
    rintro rfl
    refine ⟨fun k hk => ?_, rfl⟩
    rw [Nat.le_zero.mp hk]
    rfl

/-- A child that fails without an interruption. -/
theorem foreground_supervises_failing_child :
    (Supervises waitApplicationExits 0 100 256 ↔ (0 : ℕ) = 0) ∧
      (Supervises krgcrRunParent 0 100 256 ↔ (0 : ℕ) = 0) :=
  foreground_supervises_iff 0 (by decide) 256

/-- One relayed signal before the child ends well: `restart` fails at once, and `krgcr-run` exits
on a status that nothing has written. -/
theorem one_signal_ends_supervision :
    waitApplicationExits [.interrupted, .terminated 100 0] = some ⟨.failure, 1⟩ ∧
      krgcrRunParent [.interrupted, .terminated 100 0] = some ⟨.indeterminate, 1⟩ ∧
      ¬ Supervises waitApplicationExits 1 100 0 ∧ ¬ Supervises krgcrRunParent 1 100 0 := by
  refine ⟨rfl, rfl, fun h => ?_, fun h => ?_⟩
  · exact absurd (h.1 1 le_rfl) (by decide)
  · exact absurd (h.1 1 le_rfl) (by decide)

end Kerrighed.Tools.Supervision
