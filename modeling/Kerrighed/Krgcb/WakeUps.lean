import Mathlib.Data.Fintype.Option
import Kerrighed.Krgcb.Handlers

/-!
# Signals and the passes they wake

The mutex is a wake-up flag of one bit and `current_hook` is read again during a pass. A
second signal can therefore merge two wake-ups into one, and it can change the hook under a
pass that is still to come or already running, in whatever thread it is handled.

Neither happens when a signal that changes the hook only arrives while no other signal is
being handled and no pass is running or about to run, and a handler only unlocks a mutex that
is locked. In such a schedule the finished passes are those of the delivered signals, one each
and in the same order.
-/

namespace Kerrighed.Krgcb

open Kerrighed.Common

variable {ι F : Type} [Fintype ι]

/-- A process with a worker that waits for its first signal after `hook`. -/
def Threads.waiting (info : CrCbInfo F) (hook : Option CrCbHook) : Threads ι F :=
  { globals := ⟨some info, true, hook, true⟩
    handlers := fun _ => .idle
    worker := .locking
    log := []
    signals := []
    passes := [] }

/-- The pass went over exactly the table and the count of the hook. -/
def Covers (hook : CrCbHook) (pass : Pass) : Prop :=
  pass.table = hook ∧ ∀ c ∈ pass.counts, c = hook

/-- All handlers have returned and the worker is blocked. -/
def Threads.Blocked (a : Threads ι F) : Prop :=
  (∀ t, a.handlers t = .idle) ∧ a.worker = .locking ∧ a.globals.mutexLocked = true

/-- Once the worker is blocked, each delivered signal has led to one pass, over its own hook. -/
def EverySignalOnePass (a : Threads ι F) : Prop :=
  a.Blocked → List.Forall₂ Covers a.signals a.passes

instance : DecidablePred (EverySignalOnePass (ι := ι) (F := F)) := fun a =>
  have : ∀ hook pass, Decidable (Covers hook pass) := fun hook pass =>
    inferInstanceAs (Decidable (pass.table = hook ∧ ∀ c ∈ pass.counts, c = hook))
  inferInstanceAs (Decidable (((∀ t, a.handlers t = .idle) ∧ a.worker = .locking ∧
    a.globals.mutexLocked = true) → List.Forall₂ Covers a.signals a.passes))

/-- No thread handles a signal, and no pass is running or about to run. -/
def Threads.Quiet (a : Threads ι F) : Prop :=
  (∀ t, a.handlers t = .idle) ∧ a.globals.mutexLocked = true ∧ a.worker.inPass = false

instance Threads.Quiet.decidable (a : Threads ι F) : Decidable a.Quiet :=
  inferInstanceAs (Decidable ((∀ t, a.handlers t = .idle) ∧ a.globals.mutexLocked = true ∧
    a.worker.inPass = false))

/-- A signal arrives for the current hook or while the process is quiet, and a handler unlocks a
locked mutex only. -/
def WakeCondition (a : Threads ι F) : ThreadsLabel ι → Prop
  | .deliver _ hook => a.globals.currentHook = some hook ∨ a.Quiet
  | .handler t _ => a.handlers t = .waking → a.globals.mutexLocked = true
  | .worker _ => True

instance : ∀ (a : Threads ι F) l, Decidable (WakeCondition a l)
  | a, .deliver _ hook => inferInstanceAs (Decidable (a.globals.currentHook = some hook ∨ a.Quiet))
  | a, .handler t _ => inferInstanceAs (Decidable (a.handlers t = .waking →
      a.globals.mutexLocked = true))
  | _, .worker _ => inferInstanceAs (Decidable True)

/-- The threads that handle a signal. -/
def busy (handlers : Option ι → SignalPc) : Finset (Option ι) := {t | handlers t ≠ .idle}

/-- The number of delivered signals whose pass is not finished: one in every handler, one as an
unlocked mutex, and one in the worker. -/
def Threads.outstanding (a : Threads ι F) : ℕ :=
  (busy a.handlers).card + (!a.globals.mutexLocked).toNat + a.worker.inPass.toNat

/-- Nothing is outstanding exactly when the process is quiet. -/
theorem Threads.outstanding_eq_zero_iff (a : Threads ι F) : a.outstanding = 0 ↔ a.Quiet := by
  simp [Threads.outstanding, Threads.Quiet, busy, Finset.filter_eq_empty_iff, and_assoc]

/-- The pass a worker is in has only seen the current hook. -/
def PassCurrent (g : Globals F) : WorkerPc → Prop
  | .looping p | .calling p => ∃ hook, g.currentHook = some hook ∧ Covers hook p
  | _ => True

/-- The finished passes are those of a prefix of the delivered signals; the other `n` signals
are all for the current hook. -/
def Matched (hook : Option CrCbHook) (signals : List CrCbHook) (passes : List Pass) (n : ℕ) :
    Prop :=
  ∃ done pending, signals = done ++ pending ∧ List.Forall₂ Covers done passes ∧
    pending.length = n ∧ ∀ h ∈ pending, hook = some h

/-- A pass over the current hook finishes the next signal. -/
theorem Matched.finish {hook : Option CrCbHook} {signals : List CrCbHook} {passes : List Pass}
    {n : ℕ} (h : Matched hook signals passes (n + 1)) {pass : Pass}
    (hpass : ∃ h, hook = some h ∧ Covers h pass) : Matched hook signals (passes ++ [pass]) n := by
  obtain ⟨done, pending, hsignals, hmatch, hlen, hcurrent⟩ := h
  obtain ⟨current, hhook, hcovers⟩ := hpass
  cases pending with
  | nil => simp at hlen
  | cons first rest =>
    have hfirst : current = first :=
      Option.some.inj (hhook.symm.trans (hcurrent first List.mem_cons_self))
    refine ⟨done ++ [first], rest, by simp [hsignals], ?_, by simpa using hlen, ?_⟩
    · exact List.rel_append hmatch (.cons (hfirst ▸ hcovers) .nil)
    · exact fun h' hmem => hcurrent h' (List.mem_cons_of_mem _ hmem)

/-- A further signal for the current hook is outstanding like those before it. -/
theorem Matched.deliver {hook : CrCbHook} {signals : List CrCbHook} {passes : List Pass} {n : ℕ}
    (h : Matched (some hook) signals passes n) :
    Matched (some hook) (signals ++ [hook]) passes (n + 1) := by
  obtain ⟨done, pending, hsignals, hmatch, hlen, hcurrent⟩ := h
  refine ⟨done, pending ++ [hook], by simp [hsignals], hmatch, by simp [hlen], ?_⟩
  intro h' hmem
  rcases List.mem_append.mp hmem with hmem | hmem
  · exact hcurrent h' hmem
  · rw [List.mem_singleton.mp hmem]

/-- When nothing is outstanding the current hook does not matter. -/
theorem Matched.switch {hook : Option CrCbHook} {signals : List CrCbHook} {passes : List Pass}
    (h : Matched hook signals passes 0) (hook' : Option CrCbHook) :
    Matched hook' signals passes 0 := by
  obtain ⟨done, pending, hsignals, hmatch, hlen, -⟩ := h
  obtain rfl := List.eq_nil_of_length_eq_zero hlen
  exact ⟨done, [], hsignals, hmatch, rfl, by simp⟩

/-- The invariant of the schedules that lose no wake-up. -/
structure WakeInv (a : Threads ι F) : Prop where
  running : a.globals.threadRunning = true
  alive : a.worker ≠ .ended
  current : PassCurrent a.globals a.worker
  matched : Matched a.globals.currentHook a.signals a.passes a.outstanding

/-- When nothing is outstanding, every signal has had its pass. -/
theorem WakeInv.everySignalOnePass {a : Threads ι F} (h : WakeInv a) : EverySignalOnePass a := by
  rintro ⟨hhandlers, hworker, hmutex⟩
  have hquiet : a.Quiet := ⟨hhandlers, hmutex, by simp [hworker, WorkerPc.inPass]⟩
  obtain ⟨done, pending, hsignals, hmatch, hlen, -⟩ := h.matched
  rw [a.outstanding_eq_zero_iff.mpr hquiet] at hlen
  rw [hsignals, List.eq_nil_of_length_eq_zero hlen, List.append_nil]
  exact hmatch

/-- While a pass is running or about to run there is a current hook. -/
theorem WakeInv.hook_of_inPass {a : Threads ι F} (h : WakeInv a)
    (hpass : a.worker.inPass = true) : a.globals.currentHook ≠ none := by
  obtain ⟨done, pending, -, -, hlen, hcurrent⟩ := h.matched
  cases pending with
  | nil => simp [Threads.outstanding, hpass] at hlen
  | cons hook rest => simp [hcurrent hook List.mem_cons_self]

/-- A step of the worker keeps the number of outstanding signals, counting the pass it
finishes. -/
theorem outstanding_afterWorker {a : Threads ι F} {r : ℤ} {m : Move F WorkerPc}
    (hm : WorkerMoves r a.globals a.worker m)
    (hhook : a.worker.inPass = true → a.globals.currentHook ≠ none) :
    a.outstanding = (a.afterWorker m).outstanding + m.pass.toList.length := by
  obtain ⟨g, handlers, worker, log, signals, passes⟩ := a
  cases hm with
  | unknown hnone => exact absurd hnone (hhook rfl)
  | lost hnone => exact absurd hnone (hhook rfl)
  | lock hfree =>
    simp only at hfree
    simp [Threads.outstanding, Threads.afterWorker, WorkerPc.inPass, hfree]
  | _ => rfl

/-- A step of the worker leaves it in a pass over the current hook, if in any, and finishes only
such passes. -/
theorem passCurrent_afterWorker {r : ℤ} {g : Globals F} {pc : WorkerPc} {m : Move F WorkerPc}
    (hm : WorkerMoves r g pc m) (hcurrent : PassCurrent g pc) :
    PassCurrent m.globals m.pc ∧
      ∀ p ∈ m.pass, ∃ hook, g.currentHook = some hook ∧ Covers hook p := by
  have hread {p : Pass} {hook : CrCbHook} (hhook : g.currentHook = some hook)
      (hp : PassCurrent g (.looping p)) : Covers hook { p with counts := p.counts ++ [hook] } := by
    obtain ⟨hook', hhook', htable, hcounts⟩ := hp
    obtain rfl : hook = hook' := Option.some.inj (hhook.symm.trans hhook')
    refine ⟨htable, fun c hc => ?_⟩
    rcases List.mem_append.mp hc with hc | hc
    · exact hcounts c hc
    · exact List.mem_singleton.mp hc
  cases hm with
  | enter hhook => exact ⟨⟨_, hhook, rfl, by simp⟩, by simp⟩
  | lost hhook =>
    obtain ⟨hook, hsome, -⟩ := hcurrent
    exact absurd (hhook.symm.trans hsome) (by simp)
  | call _ hhook => exact ⟨⟨_, hhook, hread hhook hcurrent⟩, by simp⟩
  | skip _ hhook => exact ⟨⟨_, hhook, hread hhook hcurrent⟩, by simp⟩
  | finish _ hhook => exact ⟨trivial, by simpa using ⟨_, hhook, hread hhook hcurrent⟩⟩
  | fail => exact ⟨trivial, fun p hp => Option.some.inj hp ▸ hcurrent⟩
  | next => exact ⟨hcurrent, by simp⟩
  | _ => exact ⟨trivial, by simp⟩

/-- The worker's steps keep the invariant. -/
theorem WakeInv.afterWorker {a : Threads ι F} (h : WakeInv a) {r : ℤ} {m : Move F WorkerPc}
    (hm : WorkerMoves r a.globals a.worker m) : WakeInv (a.afterWorker m) := by
  obtain ⟨-, hrunning, hhook⟩ := hm.frame
  obtain ⟨hcurrent, hpass⟩ := passCurrent_afterWorker hm h.current
  refine ⟨hrunning.trans h.running, ?_, hcurrent, ?_⟩
  · have halive := h.alive
    have hrun := h.running
    obtain ⟨g, handlers, worker, log, signals, passes⟩ := a
    cases hm with
    | leave hleave => exact absurd (hleave.symm.trans hrun) (by simp)
    | _ => simp [Threads.afterWorker]
  · have hmatched := h.matched
    rw [outstanding_afterWorker hm h.hook_of_inPass] at hmatched
    change Matched m.globals.currentHook a.signals (a.passes ++ m.pass.toList) _
    rw [hhook]
    cases hp : m.pass with
    | none => simpa [hp] using hmatched
    | some p =>
      rw [hp] at hmatched
      exact hmatched.finish (hpass p hp)

/-- What a worker has seen stays current while `current_hook` stays. -/
theorem PassCurrent.of_hook_eq {g g' : Globals F} {pc : WorkerPc} (h : PassCurrent g pc)
    (hhook : g'.currentHook = g.currentHook) : PassCurrent g' pc := by
  cases pc with
  | looping | calling =>
    obtain ⟨hook, hcurrent, hcovers⟩ := h
    exact ⟨hook, hhook.trans hcurrent, hcovers⟩
  | _ => trivial

variable [DecidableEq ι]

/-- A handler that runs makes its thread busy. -/
theorem busy_update_of_ne (handlers : Option ι → SignalPc) (t : Option ι) {pc : SignalPc}
    (hpc : pc ≠ .idle) : busy (Function.update handlers t pc) = insert t (busy handlers) := by
  ext u
  by_cases hu : u = t
  · simp [busy, hu, hpc]
  · simp [busy, hu]

/-- A handler that returns leaves the other threads as they are. -/
theorem busy_update_idle (handlers : Option ι → SignalPc) (t : Option ι) :
    busy (Function.update handlers t .idle) = (busy handlers).erase t := by
  ext u
  by_cases hu : u = t
  · simp [busy, hu]
  · simp [busy, hu]

/-- A step of a handler that only unlocks a locked mutex keeps the number of outstanding
signals: a wake-up passes its signal on to the mutex. -/
theorem outstanding_afterHandler {a : Threads ι F} {t : Option ι} {r : ℤ} {m : Move F SignalPc}
    (hm : signalStep r a.globals (a.handlers t) = some m)
    (hrunning : a.globals.threadRunning = true)
    (hcond : a.handlers t = .waking → a.globals.mutexLocked = true) :
    (a.afterHandler t m).outstanding = a.outstanding := by
  rcases signalStep_cases hm with ⟨hwaking, hpc, hglobals⟩ | ⟨hidle, -, hpc, hglobals⟩
  · have hmem : t ∈ busy a.handlers := by simp [busy, hwaking]
    have hpos : 0 < (busy a.handlers).card := Finset.card_pos.mpr ⟨t, hmem⟩
    simp only [Threads.outstanding, Threads.afterHandler, hpc, hglobals, wakeWorker, hrunning,
      hcond hwaking, busy_update_idle, Finset.card_erase_of_mem hmem, if_true, Bool.not_true,
      Bool.not_false, Bool.toNat_true, Bool.toNat_false]
    omega
  · have hmem : t ∈ busy a.handlers := by simp [busy, hidle]
    simp only [Threads.outstanding, Threads.afterHandler, hglobals, busy_update_of_ne _ _ hpc,
      Finset.insert_eq_of_mem hmem]

/-- The handlers' steps keep the invariant if they only unlock a locked mutex. -/
theorem WakeInv.afterHandler {a : Threads ι F} (h : WakeInv a) {t : Option ι} {r : ℤ}
    {m : Move F SignalPc} (hm : signalStep r a.globals (a.handlers t) = some m)
    (hcond : a.handlers t = .waking → a.globals.mutexLocked = true) :
    WakeInv (a.afterHandler t m) := by
  obtain ⟨hrunning, hhook⟩ := signalStep_frame hm
  refine ⟨hrunning.trans h.running, h.alive, h.current.of_hook_eq hhook, ?_⟩
  rw [outstanding_afterHandler hm h.running hcond]
  change Matched m.globals.currentHook a.signals a.passes _
  rw [hhook]
  exact h.matched

/-- Delivering a signal under the condition keeps the invariant. -/
theorem WakeInv.afterDeliver {a : Threads ι F} (h : WakeInv a) {t : Option ι} {hook : CrCbHook}
    (hidle : a.handlers t = .idle) (hcond : WakeCondition a (.deliver t hook)) :
    WakeInv (a.afterDeliver t hook) := by
  have hmatched := h.matched
  have hout : (a.afterDeliver t hook).outstanding = a.outstanding + 1 := by
    have hmem : t ∉ busy a.handlers := by simp [busy, hidle]
    have hpc : SignalPc.entering ≠ .idle := by simp
    simp only [Threads.outstanding, Threads.afterDeliver, busy_update_of_ne _ _ hpc,
      Finset.card_insert_of_notMem hmem]
    omega
  rcases hcond with hsame | hquiet
  · have hglobals : (a.afterDeliver t hook).globals = a.globals := by
      simp only [Threads.afterDeliver, ← hsame]
    refine ⟨h.running, h.alive, ?_, ?_⟩
    · rw [hglobals]
      exact h.current
    · rw [hout, hglobals, hsame]
      rw [hsame] at hmatched
      exact hmatched.deliver
  · refine ⟨h.running, h.alive, ?_, ?_⟩
    · have hpass := hquiet.2.2
      change PassCurrent _ a.worker
      cases hworker : a.worker <;> simp [hworker, WorkerPc.inPass, PassCurrent] at hpass ⊢
    · have hzero := a.outstanding_eq_zero_iff.mpr hquiet
      rw [hout, hzero]
      rw [hzero] at hmatched
      exact (hmatched.switch (some hook)).deliver

/-- Every step that meets the condition keeps the invariant. -/
theorem wakeStep_inv {a b : Threads ι F} {l : ThreadsLabel ι} (h : WakeInv a)
    (hcond : WakeCondition a l) (hstep : wakeStep a l = some b) : WakeInv b := by
  obtain ⟨⟨b', message⟩, hthreads, rfl⟩ := Option.map_eq_some_iff.mp hstep
  rcases threadsStep_cases hthreads with ⟨t, hook, rfl, hidle, rfl, -⟩ |
    ⟨t, r, m, rfl, hm, rfl, -⟩ | ⟨r, m, rfl, -, hm, rfl, -⟩
  · exact h.afterDeliver hidle hcond
  · exact h.afterHandler hm hcond
  · exact h.afterWorker hm

/-- In a schedule all of whose steps meet the condition, each signal delivered to a thread of a
waiting process has led to exactly one pass, over its own hook, whenever the worker is blocked. -/
theorem everySignalOnePass_throughout (info : CrCbInfo F) (hook : Option CrCbHook)
    (labels : List (ThreadsLabel ι))
    (h : Along wakeStep WakeCondition (.waiting info hook) labels) :
    Throughout wakeStep EverySignalOnePass (.waiting info hook) labels := by
  have hstart : WakeInv (.waiting info hook : Threads ι F) := by
    have hquiet : (.waiting info hook : Threads ι F).Quiet := ⟨fun _ => rfl, rfl, rfl⟩
    refine ⟨rfl, by simp [Threads.waiting], trivial, [], [], rfl, .nil, ?_, by simp⟩
    rw [Threads.outstanding_eq_zero_iff _ |>.mpr hquiet]
    rfl
  exact (throughout_of_along (fun _ _ _ => wakeStep_inv) hstart labels h).mono
    fun _ => WakeInv.everySignalOnePass

/-- A checkpoint signal that is handled on its own, a second one that the worker itself handles
inside the callback of the first, and a continue signal after both passes. -/
theorem three_signals_three_passes :
    Throughout wakeStep EverySignalOnePass
      (.waiting ((CrCbInfo.zero : CrCbInfo Unit).append .chkpt ⟨some (), 0, true⟩) none)
      ([.deliver (some ()) .chkpt] ++ .replicate 5 (.handler (some ()) 0) ++
        .replicate 3 (.worker 0) ++ [.deliver none .chkpt] ++ .replicate 5 (.handler none 0) ++
        .replicate 13 (.worker 0) ++ [.deliver none .cnt] ++ .replicate 4 (.handler none 0) ++
        .replicate 5 (.worker 0)) :=
  everySignalOnePass_throughout _ _ _ (by decide)

/-- A checkpoint signal and then a continue signal before the worker has run: there is a single
pass, over the continue callbacks. -/
theorem second_signal_takes_pass :
    ¬ Throughout wakeStep EverySignalOnePass
      (.waiting ((CrCbInfo.zero : CrCbInfo Unit).append .chkpt ⟨some (), 0, true⟩) none)
      ([.deliver (some ()) .chkpt] ++ .replicate 5 (.handler (some ()) 0) ++
        [.deliver (some ()) .cnt] ++ .replicate 4 (.handler (some ()) 0) ++
        .replicate 5 (.worker 0)) := by
  decide

end Kerrighed.Krgcb
