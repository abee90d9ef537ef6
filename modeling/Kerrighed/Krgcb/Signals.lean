import Kerrighed.Common.Runs
import Kerrighed.Krgcb.Registry

/-!
# One signal from delivery to verdict

The signal handler runs the signal-context callbacks of the hook, and the worker thread it
wakes runs the thread-context ones. Both passes go through `run_callbacks`; the values the
callbacks return are an argument, indexed like the table.

A process that handles one checkpoint signal on its own should send one verdict. Who sends
it is decided twice: the handler reports a failure itself and leaves success to the worker
whenever `thread_running` is set, and the worker reports in any case. The two agree unless
the handler fails next to a worker, or the process has inherited `thread_running` through a
fork without the thread.
-/

namespace Kerrighed.Krgcb

open Kerrighed.Common

variable {F : Type}

/-- Whether a pass in the context calls the entry. -/
def CrCbCallback.runsIn (cb : CrCbCallback F) : CrCbContext → Bool
  | .signal => cb.func.isSome && !cb.threadCb
  | .thread => cb.func.isSome && cb.threadCb

/-- The loop over the entries from an index on: the indices called, and the result, which is
the first nonzero return value. -/
def runEntries (context : CrCbContext) (ret : ℕ → ℤ) :
    ℕ → List (CrCbCallback F) → List ℕ × ℤ
  | _, [] => ([], 0)
  | idx, cb :: rest =>
    if cb.runsIn context then
      if ret idx ≠ 0 then ([idx], ret idx)
      else
        let (calls, r) := runEntries context ret (idx + 1) rest
        (idx :: calls, r)
    else runEntries context ret (idx + 1) rest

/-- Run the callbacks of the current hook in one context; `none` if the process aborts. -/
def runCallbacks (context : CrCbContext) (ret : ℕ → ℤ) (g : Globals F) : Option (List ℕ × ℤ) :=
  match g.info with
  | none => none
  | some info =>
    match g.currentHook with
    | none => some ([], -1)
    | some hook => some (runEntries context ret 0 (info.registered hook))

/-- `SIG_CB_RUN_CHKPT`, `SIG_CB_RUN_RST` and `SIG_CB_RUN_CNT`. -/
def CrCbHook.signum : CrCbHook → ℕ
  | .chkpt => 37
  | .rst => 38
  | .cnt => 39

/-- The hook the handler selects for a signal. -/
def hookOfSignal (signum : ℕ) : Option CrCbHook :=
  if signum = CrCbHook.chkpt.signum then some .chkpt
  else if signum = CrCbHook.rst.signum then some .rst
  else if signum = CrCbHook.cnt.signum then some .cnt
  else none

/-- The verdict the handler sends after its pass returned `r`. -/
def handlerMessage (g : Globals F) (r : ℤ) : Option CrCbStatus :=
  if g.currentHook = some .chkpt then
    if r ≠ 0 then some .err else if g.threadRunning then none else some .chkptApp
  else none

/-- The verdict the worker sends after its pass returned `r`. -/
def workerMessage (g : Globals F) (r : ℤ) : Option CrCbStatus :=
  if g.currentHook = some .chkpt then some (if r ≠ 0 then .err else .chkptApp) else none

/-- The handler's wake-up: unlock the mutex if there should be a worker. -/
def wakeWorker (g : Globals F) : Globals F :=
  if g.threadRunning then { g with mutexLocked := false } else g

/-- The wake-up leaves the registry, `thread_running` and `current_hook`. -/
theorem wakeWorker_frame (g : Globals F) :
    (wakeWorker g).info = g.info ∧ (wakeWorker g).threadRunning = g.threadRunning ∧
      (wakeWorker g).currentHook = g.currentHook := by
  unfold wakeWorker
  split <;> exact ⟨rfl, rfl, rfl⟩

/-- The globals afterwards, the callbacks called and the messages sent. -/
structure Handled (F : Type) where
  globals : Globals F
  calls : List ℕ
  messages : List CrCbStatus

/-- The signal handler from start to end; `none` if it aborts the process. -/
def handleSignal (signum : ℕ) (ret : ℕ → ℤ) (g : Globals F) : Option (Handled F) :=
  match g.info with
  | none => none
  | some _ =>
    match hookOfSignal signum with
    | none => some ⟨g, [], []⟩
    | some hook => do
      let g := { g with currentHook := some hook }
      let (calls, r) ← runCallbacks .signal ret g
      some ⟨wakeWorker g, calls, (handlerMessage g r).toList⟩

/-- One turn of the worker loop, from the lock on; `none` if the mutex is locked or the process
aborts. -/
def workerPass (ret : ℕ → ℤ) (g : Globals F) : Option (Handled F) := do
  let g ← lockMutex g
  let (calls, r) ← runCallbacks .thread ret g
  some ⟨g, calls, (workerMessage g r).toList⟩

/-- A signal handled on its own: the handler, then the worker if there is one and it was woken. -/
def signalRound (signum : ℕ) (ret : ℕ → ℤ) (p : Process F) : Option (Handled F) := do
  let h ← handleSignal signum ret p.toGlobals
  if p.workers ≠ 0 ∧ h.globals.mutexLocked = false then
    let w ← workerPass ret h.globals
    some ⟨w.globals, h.calls ++ w.calls, h.messages ++ w.messages⟩
  else some h

/-- The verdict that the return values of the callbacks called should lead to. -/
def verdictOf (ret : ℕ → ℤ) (calls : List ℕ) : CrCbStatus :=
  if ∃ i ∈ calls, ret i ≠ 0 then .err else .chkptApp

/-- A checkpoint signal handled on its own leads to exactly one verdict, the right one. -/
def OneVerdict (p : Process F) (ret : ℕ → ℤ) : Prop :=
  ∃ round, signalRound CrCbHook.chkpt.signum ret p = some round ∧
    round.messages = [verdictOf ret round.calls]

/-- Some checkpoint callback of the context returns nonzero. -/
def Fails (context : CrCbContext) (info : CrCbInfo F) (ret : ℕ → ℤ) : Prop :=
  ∃ i cb, (info.registered .chkpt)[i]? = some cb ∧ cb.runsIn context = true ∧ ret i ≠ 0

/-- The registry is there, and if `thread_running` is set, a signal-context checkpoint callback
fails exactly when the process has no worker. -/
def VerdictReady (p : Process F) (ret : ℕ → ℤ) : Prop :=
  ∃ info, p.info = some info ∧
    (p.threadRunning = true → (p.workers = 0 ↔ Fails .signal info ret))

/-- The events that lead from an initialized process to its descendants. -/
inductive RegisterOp (F : Type) where
  | register (hook : CrCbHook) (func : Option F) (arg : ℕ) (context : CrCbContext) (create : ℤ)
  | fork

/-- Register a callback, or go on in the child of a fork. -/
def registerStep (p : Process F) : RegisterOp F → Option (Process F)
  | .register hook func arg context create =>
    (registerCallback hook func arg context create p).toOption.map Prod.snd
  | .fork => some p.fork

/-- A process that has initialized the library. -/
def Process.initialized : Process F := (crCallbackInit .success .fresh).2

/-- A pass fails exactly when one of its callbacks does. -/
theorem runEntries_ne_zero_iff (context : CrCbContext) (ret : ℕ → ℤ) (idx : ℕ)
    (entries : List (CrCbCallback F)) :
    (runEntries context ret idx entries).2 ≠ 0 ↔
      ∃ i cb, entries[i]? = some cb ∧ cb.runsIn context = true ∧ ret (idx + i) ≠ 0 := by
  induction entries generalizing idx with
  | nil => simp [runEntries]
  | cons cb rest ih =>
    have hshift : (∃ i c, (cb :: rest)[i]? = some c ∧ c.runsIn context = true ∧ ret (idx + i) ≠ 0) ↔
        (cb.runsIn context = true ∧ ret idx ≠ 0) ∨
          ∃ i c, rest[i]? = some c ∧ c.runsIn context = true ∧ ret (idx + 1 + i) ≠ 0 := by
      constructor
      · rintro ⟨i, c, hc, hrun, hret⟩
        cases i with
        | zero =>
          obtain rfl : cb = c := by simpa using hc
          exact Or.inl ⟨hrun, hret⟩
        | succ i => exact Or.inr ⟨i, c, by simpa using hc, hrun, by rwa [Nat.add_assoc, Nat.add_comm 1 i]⟩
      · rintro (⟨hrun, hret⟩ | ⟨i, c, hc, hrun, hret⟩)
        · exact ⟨0, cb, rfl, hrun, hret⟩
        · exact ⟨i + 1, c, by simpa using hc, hrun, by rwa [Nat.add_comm i 1, ← Nat.add_assoc]⟩
    rw [hshift]
    by_cases hrun : cb.runsIn context = true
    · by_cases hret : ret idx = 0
      · simpa [runEntries, hrun, hret] using ih (idx + 1)
      · simp [runEntries, hrun, hret]
    · simpa [runEntries, hrun] using ih (idx + 1)

/-- A pass fails exactly when a callback it called does. -/
theorem runEntries_calls_fail_iff (context : CrCbContext) (ret : ℕ → ℤ) (idx : ℕ)
    (entries : List (CrCbCallback F)) :
    (∃ i ∈ (runEntries context ret idx entries).1, ret i ≠ 0) ↔
      (runEntries context ret idx entries).2 ≠ 0 := by
  induction entries generalizing idx with
  | nil => simp [runEntries]
  | cons cb rest ih =>
    by_cases hrun : cb.runsIn context = true
    · by_cases hret : ret idx = 0
      · simpa [runEntries, hrun, hret] using ih (idx + 1)
      · simp [runEntries, hrun, hret]
    · simpa [runEntries, hrun] using ih (idx + 1)

/-- A callback of the context is called unless one before it fails. -/
theorem mem_runEntries (context : CrCbContext) (ret : ℕ → ℤ) (idx : ℕ)
    {before after : List (CrCbCallback F)} {cb : CrCbCallback F} (hrun : cb.runsIn context = true)
    (hzero : ∀ i < before.length, ret (idx + i) = 0) :
    idx + before.length ∈ (runEntries context ret idx (before ++ cb :: after)).1 := by
  induction before generalizing idx with
  | nil =>
    by_cases hret : ret idx = 0 <;> simp [runEntries, hrun, hret]
  | cons c before ih =>
    have hret : ret idx = 0 := hzero 0 (by simp)
    have hrest := ih (idx + 1) fun i hi => by
      rw [Nat.add_assoc, Nat.add_comm 1 i]
      exact hzero (i + 1) (by simpa using hi)
    rw [List.length_cons, Nat.add_comm before.length 1, ← Nat.add_assoc]
    by_cases hc : c.runsIn context = true
    · simpa [runEntries, hc, hret] using Or.inr hrest
    · simpa [runEntries, hc] using hrest

/-- A pass that succeeds calls every callback of its context. -/
theorem mem_runEntries_of_zero (context : CrCbContext) (ret : ℕ → ℤ) (idx : ℕ)
    {entries : List (CrCbCallback F)} (hzero : (runEntries context ret idx entries).2 = 0) {i : ℕ}
    {cb : CrCbCallback F} (hcb : entries[i]? = some cb) (hrun : cb.runsIn context = true) :
    idx + i ∈ (runEntries context ret idx entries).1 := by
  induction entries generalizing idx i with
  | nil => simp at hcb
  | cons c rest ih =>
    by_cases hc : c.runsIn context = true
    · by_cases hret : ret idx = 0
      · simp only [runEntries, hc, hret, ne_eq, not_true_eq_false, if_true, if_false] at hzero ⊢
        cases i with
        | zero => simp
        | succ i =>
          have hrest := ih (idx + 1) hzero (by simpa using hcb)
          rw [Nat.add_assoc, Nat.add_comm 1 i] at hrest
          exact List.mem_cons_of_mem _ hrest
      · simp [runEntries, hc, hret] at hzero
    · simp only [runEntries, hc, if_false, Bool.false_eq_true] at hzero ⊢
      cases i with
      | zero =>
        obtain rfl : c = cb := by simpa using hcb
        exact absurd hrun hc
      | succ i =>
        have hrest := ih (idx + 1) hzero (by simpa using hcb)
        rwa [Nat.add_assoc, Nat.add_comm 1 i] at hrest

/-- The handler selects the hook that the signal is for. -/
@[simp] theorem hookOfSignal_signum (hook : CrCbHook) : hookOfSignal hook.signum = some hook := by
  cases hook <;> rfl

/-- The handler in a process whose registry is there. -/
theorem handleSignal_signum {g : Globals F} {info : CrCbInfo F} (hinfo : g.info = some info)
    (hook : CrCbHook) (ret : ℕ → ℤ) :
    handleSignal hook.signum ret g =
      some ⟨wakeWorker { g with currentHook := some hook },
        (runEntries .signal ret 0 (info.registered hook)).1,
        (handlerMessage { g with currentHook := some hook }
          (runEntries .signal ret 0 (info.registered hook)).2).toList⟩ := by
  simp [handleSignal, runCallbacks, hinfo]

/-- The worker turn after a signal has unlocked the mutex. -/
theorem workerPass_unlocked {g : Globals F} {info : CrCbInfo F} {hook : CrCbHook}
    (hinfo : g.info = some info) (hhook : g.currentHook = some hook)
    (hfree : g.mutexLocked = false) (ret : ℕ → ℤ) :
    workerPass ret g =
      some ⟨{ g with mutexLocked := true },
        (runEntries .thread ret 0 (info.registered hook)).1,
        (workerMessage g (runEntries .thread ret 0 (info.registered hook)).2).toList⟩ := by
  simp [workerPass, lockMutex, runCallbacks, workerMessage, hinfo, hhook, hfree]

/-- A signal makes the handler's pass run, and the worker's pass too if there is a worker to wake. -/
theorem signalRound_calls_eq {p : Process F} {info : CrCbInfo F} (hinfo : p.info = some info)
    (hook : CrCbHook) (ret : ℕ → ℤ) :
    ∃ round, signalRound hook.signum ret p = some round ∧
      round.calls = (runEntries .signal ret 0 (info.registered hook)).1 ++
        if p.workers ≠ 0 ∧
            (wakeWorker { p.toGlobals with currentHook := some hook }).mutexLocked = false then
          (runEntries .thread ret 0 (info.registered hook)).1
        else [] := by
  set g := wakeWorker { p.toGlobals with currentHook := some hook } with hg
  have hframe : g.info = some info ∧ g.currentHook = some hook := by
    rw [hg, wakeWorker]
    split <;> exact ⟨hinfo, rfl⟩
  simp only [signalRound, handleSignal_signum hinfo, ← hg, Option.bind_eq_bind, Option.bind_some]
  by_cases hwake : p.workers ≠ 0 ∧ g.mutexLocked = false
  · rw [if_pos hwake, if_pos hwake, workerPass_unlocked hframe.1 hframe.2 hwake.2 ret]
    exact ⟨_, rfl, rfl⟩
  · rw [if_neg hwake, if_neg hwake, List.append_nil]
    exact ⟨_, rfl, rfl⟩

/-- A signal makes the callbacks of its hook run that its pass in signal context calls, and, if
there is a worker to wake, also those that its pass in thread context calls. -/
theorem signalRound_calls {p : Process F} {info : CrCbInfo F} (hinfo : p.info = some info)
    (hook : CrCbHook) (ret : ℕ → ℤ) :
    ∃ round, signalRound hook.signum ret p = some round ∧
      (∀ i ∈ (runEntries .signal ret 0 (info.registered hook)).1, i ∈ round.calls) ∧
      (p.workers ≠ 0 → p.threadRunning = true →
        ∀ i ∈ (runEntries .thread ret 0 (info.registered hook)).1, i ∈ round.calls) := by
  obtain ⟨round, hround, hcalls⟩ := signalRound_calls_eq hinfo hook ret
  refine ⟨round, hround, fun i hi => ?_, fun hworkers hrunning i hi => ?_⟩
  · rw [hcalls]
    exact List.mem_append_left _ hi
  · have hfree : (wakeWorker { p.toGlobals with currentHook := some hook }).mutexLocked = false := by
      rw [wakeWorker, if_pos hrunning]
    rw [hcalls, if_pos ⟨hworkers, hfree⟩]
    exact List.mem_append_right _ hi

/-- Whether a worker has to be woken is recorded consistently: while the registry is there, the
mutex is locked exactly when `thread_running` is set, and without it there is no worker. -/
def WorkerRecorded (p : Process F) : Prop :=
  p.info ≠ none →
    p.mutexLocked = p.threadRunning ∧ (p.threadRunning = false → p.workers = 0)

/-- A registration that leads to a further process has returned. -/
theorem registerStep_register {p q : Process F} {hook : CrCbHook} {func : Option F} {arg : ℕ}
    {context : CrCbContext} {create : ℤ}
    (h : registerStep p (.register hook func arg context create) = some q) :
    ∃ r, registerCallback hook func arg context create p = .ok (r, q) := by
  cases hcall : registerCallback hook func arg context create p with
  | error halt => simp [registerStep, hcall, Except.toOption] at h
  | ok result =>
    obtain ⟨r, q'⟩ := result
    simp only [registerStep, hcall, Except.toOption, Option.map_some, Option.some.injEq] at h
    exact ⟨r, by rw [h]⟩

/-- Registrations and forks keep the record of the worker. -/
theorem registerStep_recorded {p q : Process F} {op : RegisterOp F} (hp : WorkerRecorded p)
    (hstep : registerStep p op = some q) : WorkerRecorded q := by
  cases op with
  | fork =>
    obtain rfl := Option.some.inj hstep
    exact fun hinfo => ⟨(hp hinfo).1, fun _ => rfl⟩
  | register hook func arg context create =>
    obtain ⟨r, hcall⟩ := registerStep_register hstep
    obtain ⟨info, hinfo, ⟨-, -, -, -, rfl⟩ | ⟨p', hstarted, hq⟩⟩ := registerCallback_cases hcall
    · exact fun h => absurd rfl h
    · have hp' : p'.mutexLocked = p'.threadRunning ∧
          (p'.threadRunning = false → p'.workers = 0) := by
        rcases hstarted with ⟨rfl, -⟩ | ⟨-, -, -, -, rfl⟩
        · exact hp (by simp [hinfo])
        · simp
      rcases hq with ⟨-, info', rfl, -⟩ | ⟨-, rfl⟩
      · exact fun _ => hp'
      · exact fun _ => hp'

/-- The verdict in terms of the result of a pass. -/
def passVerdict (r : ℤ) : CrCbStatus := if r ≠ 0 then .err else .chkptApp

/-- Without a worker the handler of a checkpoint signal is the whole round. -/
theorem signalRound_handler {p : Process F} {info : CrCbInfo F} (hinfo : p.info = some info)
    (hworkers : p.workers = 0) (ret : ℕ → ℤ) :
    signalRound CrCbHook.chkpt.signum ret p =
      some ⟨wakeWorker { p.toGlobals with currentHook := some .chkpt },
        (runEntries .signal ret 0 (info.registered .chkpt)).1,
        (handlerMessage { p.toGlobals with currentHook := some .chkpt }
          (runEntries .signal ret 0 (info.registered .chkpt)).2).toList⟩ := by
  simp [signalRound, handleSignal_signum hinfo, hworkers]

/-- With a worker the round has two passes, and the worker reports on top of the handler. -/
theorem signalRound_worker {p : Process F} {info : CrCbInfo F} (hinfo : p.info = some info)
    (hrunning : p.threadRunning = true) (hworkers : p.workers ≠ 0) (ret : ℕ → ℤ) :
    ∃ g, signalRound CrCbHook.chkpt.signum ret p =
      some ⟨g, (runEntries .signal ret 0 (info.registered .chkpt)).1 ++
          (runEntries .thread ret 0 (info.registered .chkpt)).1,
        (if (runEntries .signal ret 0 (info.registered .chkpt)).2 ≠ 0 then [.err] else []) ++
          [passVerdict (runEntries .thread ret 0 (info.registered .chkpt)).2]⟩ := by
  have hwake : wakeWorker { p.toGlobals with currentHook := some .chkpt } =
      { p.toGlobals with currentHook := some .chkpt, mutexLocked := false } := by
    simp [wakeWorker, hrunning]
  have hpass := workerPass_unlocked (g := wakeWorker { p.toGlobals with currentHook := some .chkpt })
    (by rw [hwake]; exact hinfo) (by rw [hwake]) (by rw [hwake]) ret
  have hmessage : (handlerMessage { p.toGlobals with currentHook := some .chkpt }
      (runEntries .signal ret 0 (info.registered .chkpt)).2).toList =
      if (runEntries .signal ret 0 (info.registered .chkpt)).2 ≠ 0 then [.err] else [] := by
    by_cases hr : (runEntries .signal ret 0 (info.registered .chkpt)).2 = 0 <;>
      simp [handlerMessage, hrunning, hr]
  refine ⟨{ wakeWorker { p.toGlobals with currentHook := some .chkpt } with mutexLocked := true }, ?_⟩
  have hfree : (wakeWorker { p.toGlobals with currentHook := some .chkpt }).mutexLocked = false := by
    rw [hwake]
  have hverdict (r : ℤ) : (workerMessage (wakeWorker
      { p.toGlobals with currentHook := some .chkpt }) r).toList = [passVerdict r] := by
    simp [hwake, workerMessage, passVerdict]
  simp [signalRound, handleSignal_signum hinfo, hworkers, hfree, hpass, hmessage, hverdict]

/-- The verdict of a pass is the one its callbacks should lead to. -/
theorem verdictOf_runEntries (context : CrCbContext) (ret : ℕ → ℤ) (idx : ℕ)
    (entries : List (CrCbCallback F)) :
    verdictOf ret (runEntries context ret idx entries).1 =
      passVerdict (runEntries context ret idx entries).2 := by
  simp only [verdictOf, passVerdict, runEntries_calls_fail_iff]

/-- Callbacks that all returned zero do not change the verdict of those called after them. -/
theorem verdictOf_append {ret : ℕ → ℤ} {calls calls' : List ℕ} (h : ¬ ∃ i ∈ calls, ret i ≠ 0) :
    verdictOf ret (calls ++ calls') = verdictOf ret calls' := by
  have hiff : (∃ i ∈ calls ++ calls', ret i ≠ 0) ↔ ∃ i ∈ calls', ret i ≠ 0 := by
    constructor
    · rintro ⟨i, hi, hret⟩
      rcases List.mem_append.mp hi with hi | hi
      · exact absurd ⟨i, hi, hret⟩ h
      · exact ⟨i, hi, hret⟩
    · rintro ⟨i, hi, hret⟩
      exact ⟨i, List.mem_append_right _ hi, hret⟩
  simp only [verdictOf, hiff]

/-- In a consistently recorded process the verdict is exactly one, and right, exactly when the
handler and the worker agree on who sends it. -/
theorem oneVerdict_iff {p : Process F} (hp : WorkerRecorded p) (ret : ℕ → ℤ) :
    OneVerdict p ret ↔ VerdictReady p ret := by
  cases hinfo : p.info with
  | none => simp [OneVerdict, VerdictReady, signalRound, handleSignal, hinfo]
  | some info =>
    obtain ⟨-, hnone⟩ := hp (by simp [hinfo])
    have hfails : Fails .signal info ret ↔
        (runEntries .signal ret 0 (info.registered .chkpt)).2 ≠ 0 := by
      simpa [Fails] using (runEntries_ne_zero_iff .signal ret 0 (info.registered .chkpt)).symm
    have hverdict := verdictOf_runEntries .signal ret 0 (info.registered .chkpt)
    simp only [VerdictReady, hinfo, Option.some.injEq, exists_eq_left', hfails, OneVerdict]
    by_cases hworkers : p.workers = 0
    · simp only [signalRound_handler hinfo hworkers, Option.some.injEq, exists_eq_left', hverdict,
        handlerMessage, passVerdict, hworkers, true_iff]
      cases p.threadRunning <;>
        by_cases hr : (runEntries .signal ret 0 (info.registered .chkpt)).2 = 0 <;> simp [hr]
    · have hrunning : p.threadRunning = true := by
        cases hrun : p.threadRunning with
        | false => exact absurd (hnone hrun) hworkers
        | true => rfl
      obtain ⟨g, hround⟩ := signalRound_worker hinfo hrunning hworkers ret
      simp only [hround, Option.some.injEq, exists_eq_left', hworkers, false_iff, not_not,
        hrunning, true_imp_iff]
      constructor
      · intro hone
        by_contra hr
        simp [hr] at hone
      · intro hr
        rw [verdictOf_append (by rw [runEntries_calls_fail_iff]; exact not_not.mpr hr),
          verdictOf_runEntries]
        simp [hr]

/-- Every checkpoint signal handled on its own in a descendant of an initialized process gets
exactly one verdict, the right one, exactly when the registry is there and, if `thread_running`
is set, a signal-context checkpoint callback fails just when the worker is missing. -/
theorem oneVerdict_throughout (ops : List (RegisterOp F)) :
    Throughout registerStep (fun p => ∀ ret, OneVerdict p ret ↔ VerdictReady p ret)
      .initialized ops := by
  have hrecorded : Throughout registerStep WorkerRecorded (.initialized : Process F) ops :=
    throughout_of_step (fun _ _ _ => registerStep_recorded) (fun _ => ⟨rfl, fun _ => rfl⟩) ops
  exact hrecorded.mono fun _ hp ret => oneVerdict_iff hp ret

/-- A round that does not send one message does not lead to one verdict. -/
theorem not_oneVerdict_of_messages {p : Process F} {ret : ℕ → ℤ} (messages : List CrCbStatus)
    (hround : (signalRound CrCbHook.chkpt.signum ret p).map Handled.messages = some messages)
    (hlen : messages.length ≠ 1) : ¬ OneVerdict p ret := by
  rintro ⟨round, heq, hone⟩
  rw [heq, Option.map_some, Option.some.injEq, hone] at hround
  exact hlen (hround ▸ rfl)

/-- With a worker, a failing signal-context callback leads to two verdicts; in a child forked
after the worker was started, success leads to none. -/
theorem verdict_twice_or_never :
    ¬ Throughout registerStep (fun p => ∀ ret, OneVerdict p ret) (.initialized : Process Unit)
        [.register .chkpt (some ()) 0 .thread 0, .register .chkpt (some ()) 0 .signal 0] ∧
      ¬ Throughout registerStep (fun p => ∀ ret, OneVerdict p ret) (.initialized : Process Unit)
        [.register .chkpt (some ()) 0 .thread 0, .fork] := by
  constructor
  · intro hall
    exact not_oneVerdict_of_messages [.err, .chkptApp] (by decide) (by decide)
      (hall.finish rfl fun i => if i = 1 then 1 else 0)
  · intro hall
    exact not_oneVerdict_of_messages [] (by decide) (by decide)
      (hall.finish rfl fun _ => 0)

end Kerrighed.Krgcb
