import Kerrighed.Krgcb.Completion

/-!
# One signal, however its threads interleave

`signalRound` runs the handler to its end and then the worker, as if nothing else could happen.
The process itself lets the two threads make their steps in any order. For one signal that
arrives while the worker waits for a locked mutex, the difference does not show: the handler
alone unlocks the mutex, and it does so last.

The proof carries along what is still to come. What the process has called and sent, followed by
what it will call and send, is the same after every step, whoever makes it; at the start it is
what `signalRound` says, and at the end nothing is left to come.
-/

namespace Kerrighed.Krgcb

open Kerrighed.Common

variable {F : Type} {info : CrCbInfo F} {hook : CrCbHook} {ret : ℕ → ℤ}

/-- The two threads of a process. -/
inductive Thread where
  | handler
  | worker
  deriving DecidableEq, Repr

/-- A process that handles a signal, and the messages it has sent since. -/
structure Round (F : Type) where
  app : App F
  sent : List CrCbStatus

/-- The index of the callback that the worker is in. -/
def WorkerPc.current : WorkerPc → ℕ
  | .calling p => p.idx
  | _ => 0

/-- The next step of a thread, where a callback returns what is given for its index. -/
def roundStep (ret : ℕ → ℤ) (s : Round F) : Thread → Option (Round F)
  | .handler => do
    let (a, message) ← appStep s.app (.handler ret)
    some ⟨a, s.sent ++ message.toList⟩
  | .worker => do
    let (a, message) ← appStep s.app (.worker (ret s.app.worker.current))
    some ⟨a, s.sent ++ message.toList⟩

/-- A process in which the handler has just selected the hook of a signal. -/
def Process.signalled (p : Process F) (hook : CrCbHook) (worker : WorkerPc) : Round F :=
  ⟨⟨{ p.toGlobals with currentHook := some hook }, .running, worker, [], [hook], []⟩, []⟩

/-- The index of a call. -/
def Event.call : Event → Option ℕ
  | .called _ _ idx => some idx
  | .returned _ _ _ _ => none

/-- A call has its index. -/
@[simp] theorem Event.call_called (context : CrCbContext) (hook : CrCbHook) (idx : ℕ) :
    (Event.called context hook idx).call = some idx := rfl

/-- A return is no call. -/
@[simp] theorem Event.call_returned (context : CrCbContext) (hook : CrCbHook) (idx : ℕ) (r : ℤ) :
    (Event.returned context hook idx r).call = none := rfl

/-- The rest of the worker's pass from an index on. -/
def passFrom (info : CrCbInfo F) (hook : CrCbHook) (ret : ℕ → ℤ) (idx : ℕ) : List ℕ × ℤ :=
  runEntries .thread ret idx ((info.registered hook).drop idx)

/-- What the rest of a pass leads to. -/
def passFuture (info : CrCbInfo F) (hook : CrCbHook) (ret : ℕ → ℤ) (g : Globals F) (idx : ℕ) :
    Handled F :=
  ⟨g, (passFrom info hook ret idx).1, (workerMessage g (passFrom info hook ret idx).2).toList⟩

/-- What the worker will call and send if nobody else does anything. -/
def workerFuture (info : CrCbInfo F) (hook : CrCbHook) (ret : ℕ → ℤ) (g : Globals F) :
    WorkerPc → Handled F
  | .ended => ⟨g, [], []⟩
  | .starting | .head | .locking =>
    if g.mutexLocked then ⟨g, [], []⟩
    else passFuture info hook ret { g with mutexLocked := true } 0
  | .entering => passFuture info hook ret g 0
  | .looping p => passFuture info hook ret g p.idx
  | .calling p =>
    if ret p.idx ≠ 0 then ⟨g, [], (workerMessage g (ret p.idx)).toList⟩
    else passFuture info hook ret g (p.idx + 1)
  | .testing r => ⟨g, [], (workerMessage g r).toList⟩
  | .sending verdict => ⟨g, [], [verdict]⟩

/-- Calls and messages before others. -/
def Handled.after (h : Handled F) (calls : List ℕ) (messages : List CrCbStatus) : Handled F :=
  ⟨h.globals, calls ++ h.calls, messages ++ h.messages⟩

/-- What the handler and then the worker will call and send. -/
def App.future (info : CrCbInfo F) (hook : CrCbHook) (ret : ℕ → ℤ) (a : App F) : Handled F :=
  match a.handler with
  | .idle => workerFuture info hook ret a.globals a.worker
  | .waking => workerFuture info hook ret (wakeWorker a.globals) a.worker
  | .sending verdict =>
    (workerFuture info hook ret (wakeWorker a.globals) a.worker).after [] [verdict]
  | .tested r =>
    (workerFuture info hook ret (wakeWorker a.globals) a.worker).after []
      (handlerMessage a.globals r).toList
  | .running =>
    (workerFuture info hook ret (wakeWorker a.globals) a.worker).after
      (runEntries .signal ret 0 (info.registered hook)).1
      (handlerMessage a.globals (runEntries .signal ret 0 (info.registered hook)).2).toList

/-- Everything called and sent, now and later. -/
def Round.total (info : CrCbInfo F) (hook : CrCbHook) (ret : ℕ → ℤ) (s : Round F) : Handled F :=
  (s.app.future info hook ret).after (s.app.log.filterMap Event.call) s.sent

/-- The invariant: the hook is the one of the signal, the worker is idle until the handler has
returned, and a free mutex is meant for a worker that will lock it. -/
structure InTurn (info : CrCbInfo F) (hook : CrCbHook) (a : App F) : Prop where
  registry : a.globals.info = some info
  selected : a.globals.currentHook = some hook
  idle : a.handler ≠ .idle → a.WorkerIdle
  awaited : a.handler = .idle → a.worker ≠ .ended → a.globals.mutexLocked = false →
    a.globals.threadRunning = true ∧ a.worker.waits = true
  table : ∀ p, a.worker = .looping p ∨ a.worker = .calling p → p.table = hook

/-- Behind the count there is nothing left to run. -/
theorem passFrom_of_le (ret : ℕ → ℤ) {idx : ℕ} (hidx : cbCountRead hook info.crCbCount ≤ idx) :
    passFrom info hook ret idx = ([], 0) :=
  runEntries_drop_of_le .thread ret hidx

/-- The rest of a pass begins with the entry at its index, if that is of the context. -/
theorem passFrom_of_lt (ret : ℕ → ℤ) {idx : ℕ} (hidx : idx < cbCountRead hook info.crCbCount) :
    passFrom info hook ret idx =
      if (info.entry hook idx).runsIn .thread = true then
        if ret idx ≠ 0 then ([idx], ret idx)
        else (idx :: (passFrom info hook ret (idx + 1)).1, (passFrom info hook ret (idx + 1)).2)
      else passFrom info hook ret (idx + 1) :=
  runEntries_drop_of_lt .thread ret hidx

/-- Calls and messages before others, twice. -/
theorem Handled.after_after (h : Handled F) (calls calls' : List ℕ)
    (messages messages' : List CrCbStatus) :
    (h.after calls messages).after calls' messages' =
      h.after (calls' ++ calls) (messages' ++ messages) := by
  simp [Handled.after]

/-- Nothing before. -/
@[simp] theorem Handled.after_nil (h : Handled F) : h.after [] [] = h := rfl

/-- The handler's pass records the calls it makes. -/
theorem filterMap_call_signalEvents {g : Globals F} (hhook : g.currentHook = some hook)
    (ret : ℕ → ℤ) (calls : List ℕ) : (signalEvents g ret calls).filterMap Event.call = calls := by
  simp only [signalEvents, hhook]
  induction calls with
  | nil => rfl
  | cons i rest ih =>
    rw [List.flatMap_cons, List.filterMap_append, ih]
    rfl

/-- While the mutex is locked, a worker that waits does nothing that shows. -/
theorem workerFuture_idle {a : App F} (h : a.WorkerIdle) {r : ℤ} {m : Move F WorkerPc}
    (hm : WorkerMoves r a.globals a.worker m) :
    m.globals = a.globals ∧ m.events = [] ∧ m.message = none ∧
      workerFuture info hook ret (wakeWorker a.globals) m.pc =
        workerFuture info hook ret (wakeWorker a.globals) a.worker := by
  obtain ⟨g, handler, worker, log, signals, passes⟩ := a
  simp only [App.WorkerIdle] at h
  cases hm with
  | start => exact ⟨rfl, rfl, rfl, rfl⟩
  | stay => exact ⟨rfl, rfl, rfl, rfl⟩
  | leave hstop =>
    have hrunning : g.threadRunning = false := hstop
    have hlocked : g.mutexLocked = true := by simpa [WorkerPc.waits] using h
    refine ⟨rfl, rfl, rfl, ?_⟩
    simp [workerFuture, wakeWorker, hrunning, hlocked]
  | lock hfree =>
    have hunlocked : g.mutexLocked = false := hfree
    simp [hunlocked] at h
  | _ => simp [WorkerPc.waits] at h

/-- What the worker does when the handler has returned is what was to come. -/
theorem workerFuture_step {g : Globals F} {pc : WorkerPc} (hinfo : g.info = some info)
    (hhook : g.currentHook = some hook)
    (hawaited : pc ≠ .ended → g.mutexLocked = false → g.threadRunning = true ∧ pc.waits = true)
    (htable : ∀ p, pc = .looping p ∨ pc = .calling p → p.table = hook) {m : Move F WorkerPc}
    (hm : WorkerMoves (ret pc.current) g pc m) :
    (workerFuture info hook ret m.globals m.pc).after (m.events.filterMap Event.call)
        m.message.toList = workerFuture info hook ret g pc := by
  have hcurrent {hook' : CrCbHook} (h : g.currentHook = some hook') : hook' = hook :=
    Option.some.inj (h.symm.trans hhook)
  have hsame {info' : CrCbInfo F} (h : g.info = some info') : info' = info :=
    Option.some.inj (h.symm.trans hinfo)
  have hlocked (hpc : pc ≠ .ended) (hbusy : pc.waits = false) : g.mutexLocked = true := by
    by_contra hfree
    simpa [hbusy] using hawaited hpc (Bool.eq_false_of_not_eq_true hfree)
  cases hm with
  | start => rfl
  | stay => rfl
  | leave hstop =>
    have hkept : g.mutexLocked = true := by
      by_contra hfree
      obtain ⟨hrun, -⟩ := hawaited (by simp) (Bool.eq_false_of_not_eq_true hfree)
      simp [hrun] at hstop
    simp [workerFuture, hkept]
  | lock hfree => simp [workerFuture, hfree]
  | unknown hnone => simp [hnone] at hhook
  | enter hhook' => rfl
  | lost hnone => simp [hnone] at hhook
  | @call p info' hook' hinfo' hhook' hidx hruns =>
    obtain rfl := hsame hinfo'
    obtain rfl := hcurrent hhook'
    obtain rfl := htable p (Or.inl rfl)
    by_cases hret : ret p.idx = 0 <;>
      simp [workerFuture, passFuture, passFrom_of_lt ret hidx, hruns, hret, Handled.after]
  | @skip p info' hook' hinfo' hhook' hidx hruns =>
    obtain rfl := hsame hinfo'
    obtain rfl := hcurrent hhook'
    obtain rfl := htable p (Or.inl rfl)
    simp [workerFuture, passFuture, passFrom_of_lt ret hidx, hruns]
  | @finish p info' hook' hinfo' hhook' hidx =>
    obtain rfl := hsame hinfo'
    obtain rfl := hcurrent hhook'
    simp [workerFuture, passFuture, passFrom_of_le ret hidx]
  | @fail p hr =>
    have hret : ret p.idx ≠ 0 := hr
    simp [workerFuture, hret, WorkerPc.current, List.filterMap_cons]
  | @next p hr =>
    have hret : ret p.idx = 0 := hr
    simp [workerFuture, hret, List.filterMap_cons]
  | silent hmessage => simp [workerFuture, hmessage, hlocked (by simp) rfl]
  | report hmessage => simp [workerFuture, hmessage]
  | send => simp [workerFuture, hlocked (by simp) rfl, Handled.after]

/-- A step of the worker keeps the turns. -/
theorem InTurn.afterWorker {a : App F} (h : InTurn info hook a) {r : ℤ} {m : Move F WorkerPc}
    (hm : WorkerMoves r a.globals a.worker m) : InTurn info hook (a.afterWorker m) := by
  obtain ⟨hinfo, -, hhook⟩ := hm.frame
  refine ⟨hinfo.trans h.registry, hhook.trans h.selected, fun hbusy => ?_, ?_, ?_⟩
  · exact ((h.idle hbusy).afterWorker hm).1
  · obtain ⟨g, handler, worker, log, signals, passes⟩ := a
    intro hidle hended hfree
    cases hm with
    | start => exact ⟨(h.awaited hidle (by simp) hfree).1, rfl⟩
    | stay => exact ⟨(h.awaited hidle (by simp) hfree).1, rfl⟩
    | leave => exact absurd rfl hended
    | lock => cases hfree
    | _ => cases (h.awaited hidle (by simp) hfree).2
  · obtain ⟨g, handler, worker, log, signals, passes⟩ := a
    intro p hp
    have hselected : g.currentHook = some hook := h.selected
    cases hm with
    | enter hhook' =>
      obtain rfl := Option.some.inj (hselected.symm.trans hhook')
      obtain rfl : ⟨hook, 0, []⟩ = p := by simpa [App.afterWorker] using hp
      rfl
    | @call q info' hook' hinfo' hhook' hidx hruns =>
      obtain rfl : { q with counts := q.counts ++ [hook'] } = p := by
        simpa [App.afterWorker] using hp
      exact h.table q (Or.inl rfl)
    | @skip q info' hook' hinfo' hhook' hidx hruns =>
      obtain rfl : { q with counts := q.counts ++ [hook'], idx := q.idx + 1 } = p := by
        simpa [App.afterWorker] using hp
      exact h.table q (Or.inl rfl)
    | @next q hr =>
      obtain rfl : { q with idx := q.idx + 1 } = p := by simpa [App.afterWorker] using hp
      exact h.table q (Or.inr rfl)
    | _ => simp [App.afterWorker] at hp

/-- A step of the worker leaves what has been and is to come. -/
theorem InTurn.future_afterWorker {a : App F} (h : InTurn info hook a) {m : Move F WorkerPc}
    (hm : WorkerMoves (ret a.worker.current) a.globals a.worker m) :
    ((a.afterWorker m).future info hook ret).after (m.events.filterMap Event.call)
      m.message.toList = a.future info hook ret := by
  have hsame (hbusy : a.handler ≠ .idle) :
      m.globals = a.globals ∧ m.events = [] ∧ m.message = none ∧
        workerFuture info hook ret (wakeWorker a.globals) m.pc =
          workerFuture info hook ret (wakeWorker a.globals) a.worker :=
    workerFuture_idle (h.idle hbusy) hm
  cases hhandler : a.handler with
  | idle =>
    simp only [App.future, App.afterWorker, hhandler]
    exact workerFuture_step h.registry h.selected (h.awaited hhandler) h.table hm
  | _ =>
    obtain ⟨hglobals, hevents, hmessage, hfuture⟩ := hsame (by simp [hhandler])
    simp [App.future, App.afterWorker, hhandler, hglobals, hevents, hmessage, hfuture]

/-- A step of the handler keeps the turns. -/
theorem InTurn.afterHandler {a : App F} (h : InTurn info hook a) {m : Move F HandlerPc}
    (hm : HandlerMoves ret a.globals a.handler m) : InTurn info hook (a.afterHandler m) := by
  obtain ⟨hinfo, hrunning, hhook⟩ := hm.frame
  obtain ⟨g, handler, worker, log, signals, passes⟩ := a
  have hidle : handler ≠ .idle → (App.mk g handler worker log signals passes).WorkerIdle := h.idle
  refine ⟨hinfo.trans h.registry, hhook.trans h.selected, fun hbusy => ?_, ?_, h.table⟩
  · cases hm with
    | wake => exact absurd rfl hbusy
    | _ => exact hidle (by simp)
  · intro hreturned hended hfree
    cases hm with
    | wake =>
      have hwaits : g.mutexLocked = true ∧ worker.waits = true :=
        (hidle (by simp)).resolve_left hended
      cases hrun : g.threadRunning with
      | true => exact ⟨hrunning.trans hrun, hwaits.2⟩
      | false => simp [App.afterHandler, wakeWorker, hrun, hwaits.1] at hfree
    | _ => simp [App.afterHandler] at hreturned

/-- A step of the handler leaves what has been and is to come. -/
theorem InTurn.future_afterHandler {a : App F} (h : InTurn info hook a) {m : Move F HandlerPc}
    (hm : HandlerMoves ret a.globals a.handler m) :
    ((a.afterHandler m).future info hook ret).after (m.events.filterMap Event.call)
      m.message.toList = a.future info hook ret := by
  obtain ⟨g, handler, worker, log, signals, passes⟩ := a
  have hselected : g.currentHook = some hook := h.selected
  have hregistry : g.info = some info := h.registry
  cases hm with
  | @pass calls r hcalls =>
    have hpass : runEntries .signal ret 0 (info.registered hook) = (calls, r) := by
      simpa [runCallbacks, hregistry, hselected] using hcalls
    simp [App.future, App.afterHandler, hpass, filterMap_call_signalEvents hselected,
      Handled.after]
  | silent hmessage => simp [App.future, App.afterHandler, hmessage]
  | report hmessage => simp [App.future, App.afterHandler, hmessage]
  | send => simp [App.future, App.afterHandler]
  | wake => simp [App.future, App.afterHandler]

/-- A step of either thread keeps the turns and the total. -/
theorem roundStep_total {s t : Round F} {thread : Thread} (h : InTurn info hook s.app)
    (hstep : roundStep ret s thread = some t) :
    InTurn info hook t.app ∧ t.total info hook ret = s.total info hook ret := by
  cases thread with
  | handler =>
    obtain ⟨⟨a, message⟩, happ, hstep⟩ := Option.bind_eq_some_iff.mp hstep
    obtain ⟨m, hm, happ⟩ := Option.bind_eq_some_iff.mp happ
    cases happ
    cases hstep
    have hmoves := handlerMoves_of_step hm
    refine ⟨h.afterHandler hmoves, ?_⟩
    rw [Round.total, Round.total, ← h.future_afterHandler hmoves, Handled.after_after]
    simp [App.afterHandler]
  | worker =>
    obtain ⟨⟨a, message⟩, happ, hstep⟩ := Option.bind_eq_some_iff.mp hstep
    obtain ⟨m, hm, happ⟩ := Option.bind_eq_some_iff.mp happ
    cases happ
    cases hstep
    have hmoves := workerMoves_of_step hm
    refine ⟨h.afterWorker hmoves, ?_⟩
    rw [Round.total, Round.total, ← h.future_afterWorker hmoves, Handled.after_after]
    simp [App.afterWorker]

/-- Neither thread can go on. -/
def Round.AtRest (ret : ℕ → ℤ) (s : Round F) : Prop := ∀ thread, roundStep ret s thread = none

/-- When neither thread can go on, nothing is left to come. -/
theorem InTurn.future_of_atRest {s : Round F} (h : InTurn info hook s.app) (hrest : s.AtRest ret) :
    s.app.future info hook ret = ⟨s.app.globals, [], []⟩ := by
  have hhandler : s.app.handler = .idle := by
    have hstep := hrest .handler
    cases hm : handlerStep ret s.app.globals s.app.handler with
    | none => exact handler_idle_of_step h.registry hm
    | some m => simp [roundStep, appStep, hm] at hstep
  have hworker : s.app.WorkerBlocked := by
    have hstep := hrest .worker
    cases hm : workerStep (ret s.app.worker.current) s.app.globals s.app.worker with
    | none => exact App.workerBlocked_of_step h.registry hm
    | some m => simp [roundStep, appStep, hm] at hstep
  rcases hworker with hended | ⟨hlocked, hlocking⟩
  · simp [App.future, hhandler, hended, workerFuture]
  · simp [App.future, hhandler, hlocking, workerFuture, hlocked]

/-- Before the first step, what is to come is what the sequential round does. -/
theorem total_signalled {p : Process F} (hinfo : p.info = some info) {worker : WorkerPc}
    (hworker : (p.workers = 0 ∧ worker = .ended) ∨
      (p.workers ≠ 0 ∧ worker.waits = true ∧ p.mutexLocked = true)) :
    signalRound hook.signum ret p = some ((p.signalled hook worker).total info hook ret) := by
  set g := wakeWorker { p.toGlobals with currentHook := some hook } with hg
  have hframe : g.info = some info ∧ g.currentHook = some hook := by
    rw [hg, wakeWorker]
    split <;> exact ⟨hinfo, rfl⟩
  have htotal : (p.signalled hook worker).total info hook ret =
      (workerFuture info hook ret g worker).after
        (runEntries .signal ret 0 (info.registered hook)).1
        (handlerMessage { p.toGlobals with currentHook := some hook }
          (runEntries .signal ret 0 (info.registered hook)).2).toList := by
    simp [Round.total, Process.signalled, App.future, hg]
  rw [htotal]
  simp only [signalRound, handleSignal_signum hinfo, ← hg, Option.bind_eq_bind, Option.bind_some]
  rcases hworker with ⟨hnone, rfl⟩ | ⟨hsome, hwaits, hlocked⟩
  · simp [hnone, workerFuture, Handled.after]
  · have hfuture : workerFuture info hook ret g worker =
        if g.mutexLocked then ⟨g, [], []⟩
        else passFuture info hook ret { g with mutexLocked := true } 0 := by
      cases worker with
      | starting | head | locking => rfl
      | _ => cases hwaits
    rw [hfuture]
    cases hfree : g.mutexLocked with
    | true => simp [Handled.after]
    | false =>
      rw [workerPass_unlocked hframe.1 hframe.2 hfree ret]
      simp [hsome, Handled.after, passFuture, passFrom, workerMessage]

/-- However the handler and the worker interleave after one signal that finds the worker waiting for
a locked mutex, or no worker, they call what the sequential round calls, in the same order, send
its messages, and leave its globals. -/
theorem interleaving_sequential {p : Process F} (hinfo : p.info = some info) {worker : WorkerPc}
    (hworker : (p.workers = 0 ∧ worker = .ended) ∨
      (p.workers ≠ 0 ∧ worker.waits = true ∧ p.mutexLocked = true))
    (schedule : List Thread) {s : Round F}
    (hrun : run (roundStep ret) (p.signalled hook worker) schedule = some s)
    (hrest : s.AtRest ret) :
    signalRound hook.signum ret p =
      some ⟨s.app.globals, s.app.log.filterMap Event.call, s.sent⟩ := by
  have hstart : InTurn info hook (p.signalled hook worker).app := by
    refine ⟨hinfo, rfl, fun _ => ?_, by simp [Process.signalled], ?_⟩
    · rcases hworker with ⟨-, rfl⟩ | ⟨-, hwaits, hlocked⟩
      · exact Or.inl rfl
      · exact Or.inr ⟨hlocked, hwaits⟩
    · rintro q (hq | hq) <;> rcases hworker with ⟨-, rfl⟩ | ⟨-, hwaits, -⟩ <;>
        simp_all [Process.signalled, WorkerPc.waits]
  have hkeep (t : Round F) (thread : Thread) (u : Round F)
      (ht : InTurn info hook t.app ∧
        t.total info hook ret = (p.signalled hook worker).total info hook ret)
      (hstep : roundStep ret t thread = some u) :
      InTurn info hook u.app ∧
        u.total info hook ret = (p.signalled hook worker).total info hook ret := by
    obtain ⟨hturn, htotal⟩ := roundStep_total ht.1 hstep
    exact ⟨hturn, htotal.trans ht.2⟩
  obtain ⟨hturn, htotal⟩ := (throughout_of_step hkeep ⟨hstart, rfl⟩ schedule).finish hrun
  rw [total_signalled hinfo hworker, ← htotal, Round.total, hturn.future_of_atRest hrest]
  simp [Handled.after]

/-- A process with the callbacks of `bothContexts` and a worker that waits. -/
def waitingProcess : Process Unit where
  toGlobals := bothContexts.start.globals
  handlers := fun _ => true
  activCb := true
  workers := 1

/-- The worker begins a loop between two steps of the handler, and later runs its pass. -/
def interleaved : List Thread :=
  [.handler, .worker, .handler, .handler] ++ .replicate 8 .worker

/-- The callback of the worker fails, and its verdict follows the successful pass of the handler. -/
theorem failing_worker_sequential :
    ∃ s, run (roundStep fun i => (i : ℤ)) (waitingProcess.signalled .chkpt .head) interleaved =
        some s ∧
      signalRound CrCbHook.chkpt.signum (fun i => (i : ℤ)) waitingProcess =
        some ⟨s.app.globals, s.app.log.filterMap Event.call, s.sent⟩ := by
  have hall : (run (roundStep fun i => (i : ℤ)) (waitingProcess.signalled .chkpt .head)
      interleaved).any (fun s => (roundStep (fun i => (i : ℤ)) s .handler).isNone &&
        (roundStep (fun i => (i : ℤ)) s .worker).isNone) = true := by decide
  obtain ⟨s, hs, hstuck⟩ := (Option.any_eq_true _ _).mp hall
  rw [Bool.and_eq_true, Option.isNone_iff_eq_none, Option.isNone_iff_eq_none] at hstuck
  refine ⟨s, hs, interleaving_sequential rfl (Or.inr ⟨by decide, rfl, rfl⟩) interleaved hs ?_⟩
  intro thread
  cases thread with
  | handler => exact hstuck.1
  | worker => exact hstuck.2

end Kerrighed.Krgcb
