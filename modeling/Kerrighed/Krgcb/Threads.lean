import Kerrighed.Krgcb.Signals

/-!
# The signal handler and the worker thread, step by step

One thread of the process gets the signals and runs the handler, and the worker is another
one. They share `current_hook`, which the handler writes and the worker reads again and again,
and the mutex, which the worker locks and the handler unlocks. A label says which of the two
makes its next step, so a list of labels is a schedule.

The runs here are those with one handler at a time. A thread that handles a signal gets no
other one, but a further thread could: the handlers of all threads are in
`Kerrighed.Krgcb.Handlers`, and the runs here are a part of those there.

The handler's own pass is one step: nobody else writes `current_hook`, so the pass does not
depend on what the worker does meanwhile. The worker's pass reads `current_hook` once for
the table and once more before every entry for the count; each read is a step. Between the
test of `current_hook` and the end of `send_message` the other threads go on as well.

The log, the delivered signals and the finished passes only record what happened.
-/

namespace Kerrighed.Krgcb

variable {F : Type}

/-- A pass of the worker: the hook its table was selected by, the next index, and the hooks
whose counts it has read so far. -/
structure Pass where
  table : CrCbHook
  idx : ℕ
  counts : List CrCbHook
  deriving DecidableEq, Repr

/-- Where the worker is: before its check of `info`, at the loop condition, in
`pthread_mutex_lock`, in `run_callbacks` before the switch, at the loop condition of the pass,
inside a callback, at the test of `current_hook`, and in `send_message`. -/
inductive WorkerPc where
  | starting
  | head
  | locking
  | entering
  | looping (pass : Pass)
  | calling (pass : Pass)
  | testing (r : ℤ)
  | sending (verdict : CrCbStatus)
  | ended
  deriving DecidableEq, Repr

/-- Where the handler is: not running, before its pass, behind it, in `send_message`, and at the
wake-up. -/
inductive HandlerPc where
  | idle
  | running
  | tested (r : ℤ)
  | sending (verdict : CrCbStatus)
  | waking
  deriving DecidableEq, Repr

/-- The start and the end of a call of a callback, named by hook and index. -/
inductive Event where
  | called (context : CrCbContext) (hook : CrCbHook) (idx : ℕ)
  | returned (context : CrCbContext) (hook : CrCbHook) (idx : ℕ) (r : ℤ)
  deriving DecidableEq, Repr

/-- What one step of a thread does: the globals and the place after it, the events, the pass it
finished and the message it sent. -/
structure Move (F Pc : Type) where
  globals : Globals F
  pc : Pc
  events : List Event := []
  pass : Option Pass := none
  message : Option CrCbStatus := none

/-- An entry of the table of a hook; behind the table there is none. -/
def CrCbInfo.entry (info : CrCbInfo F) (hook : CrCbHook) (idx : ℕ) : CrCbCallback F :=
  ((info.table hook)[idx]?).getD .zero

/-- An index below the count has the entry that the pass reads. -/
theorem CrCbInfo.registered_getD (info : CrCbInfo F) {hook : CrCbHook} {idx : ℕ}
    (hidx : idx < cbCountRead hook info.crCbCount) :
    ((info.registered hook)[idx]?).getD .zero = info.entry hook idx := by
  rw [CrCbInfo.registered, List.getElem?_take_of_lt hidx, CrCbInfo.entry, Vector.getElem?_toList]

/-- Behind the count there is nothing left to run. -/
theorem runEntries_drop_of_le {info : CrCbInfo F} {hook : CrCbHook} (context : CrCbContext)
    (ret : ℕ → ℤ) {idx : ℕ} (hidx : cbCountRead hook info.crCbCount ≤ idx) :
    runEntries context ret idx ((info.registered hook).drop idx) = ([], 0) := by
  have hnil : (info.registered hook).drop idx = [] := by
    rw [List.drop_eq_nil_iff, CrCbInfo.registered]
    exact (List.length_take_le _ _).trans hidx
  rw [hnil, runEntries]

/-- The rest of a pass begins with the entry at its index, if that is of the context. -/
theorem runEntries_drop_of_lt {info : CrCbInfo F} {hook : CrCbHook} (context : CrCbContext)
    (ret : ℕ → ℤ) {idx : ℕ} (hidx : idx < cbCountRead hook info.crCbCount) :
    runEntries context ret idx ((info.registered hook).drop idx) =
      if (info.entry hook idx).runsIn context = true then
        if ret idx ≠ 0 then ([idx], ret idx)
        else
          (idx :: (runEntries context ret (idx + 1) ((info.registered hook).drop (idx + 1))).1,
            (runEntries context ret (idx + 1) ((info.registered hook).drop (idx + 1))).2)
      else runEntries context ret (idx + 1) ((info.registered hook).drop (idx + 1)) := by
  have hentry := info.registered_getD hidx
  by_cases hlt : idx < (info.registered hook).length
  · rw [List.getElem?_eq_getElem hlt, Option.getD_some] at hentry
    rw [List.drop_eq_getElem_cons hlt, hentry, runEntries]
  · have hle := Nat.le_of_not_lt hlt
    rw [List.getElem?_eq_none hle, Option.getD_none] at hentry
    have hzero : (info.entry hook idx).runsIn context = false := by
      rw [← hentry]
      cases context <;> rfl
    rw [List.drop_eq_nil_of_le hle, List.drop_eq_nil_of_le (hle.trans (Nat.le_succ idx)), hzero]
    rfl

/-- The next step of the worker, `r` being what the callback returns if it is inside one; `none`
if it is blocked or gone, or if it aborts the process. -/
def workerStep (r : ℤ) (g : Globals F) : WorkerPc → Option (Move F WorkerPc)
  | .starting =>
    match g.info with
    | none => none
    | some _ => some { globals := g, pc := .head }
  | .head => some { globals := g, pc := if g.threadRunning then .locking else .ended }
  | .locking => (lockMutex g).map fun g => { globals := g, pc := .entering }
  | .entering =>
    match g.info with
    | none => none
    | some _ =>
      match g.currentHook with
      | none => some { globals := g, pc := .testing (-1) }
      | some hook => some { globals := g, pc := .looping ⟨hook, 0, []⟩ }
  | .looping p =>
    match g.info with
    | none => none
    | some info =>
      match g.currentHook with
      | none => some { globals := g, pc := .testing 0, pass := some p }
      | some hook =>
        let p := { p with counts := p.counts ++ [hook] }
        if p.idx < cbCountRead hook info.crCbCount then
          if (info.entry p.table p.idx).runsIn .thread then
            some { globals := g, pc := .calling p, events := [.called .thread p.table p.idx] }
          else some { globals := g, pc := .looping { p with idx := p.idx + 1 } }
        else some { globals := g, pc := .testing 0, pass := some p }
  | .calling p =>
    let events := [.returned .thread p.table p.idx r]
    if r ≠ 0 then some { globals := g, pc := .testing r, events := events, pass := some p }
    else some { globals := g, pc := .looping { p with idx := p.idx + 1 }, events := events }
  | .testing r =>
    match workerMessage g r with
    | none => some { globals := g, pc := .head }
    | some verdict => some { globals := g, pc := .sending verdict }
  | .sending verdict => some { globals := g, pc := .head, message := some verdict }
  | .ended => none

/-- The events of the handler's pass. -/
def signalEvents (g : Globals F) (ret : ℕ → ℤ) (calls : List ℕ) : List Event :=
  match g.currentHook with
  | none => []
  | some hook => calls.flatMap fun i => [.called .signal hook i, .returned .signal hook i (ret i)]

/-- The next step of the handler after it has written `current_hook`, `ret` being what the
callbacks return; `none` if it is not running. -/
def handlerStep (ret : ℕ → ℤ) (g : Globals F) : HandlerPc → Option (Move F HandlerPc)
  | .idle => none
  | .running => do
    let (calls, r) ← runCallbacks .signal ret g
    some { globals := g, pc := .tested r, events := signalEvents g ret calls }
  | .tested r =>
    match handlerMessage g r with
    | none => some { globals := g, pc := .waking }
    | some verdict => some { globals := g, pc := .sending verdict }
  | .sending verdict => some { globals := g, pc := .waking, message := some verdict }
  | .waking => some { globals := wakeWorker g, pc := .idle }

/-- A process with its two threads, the calls made, the signals delivered and the passes the
worker has finished. -/
structure App (F : Type) where
  globals : Globals F
  handler : HandlerPc
  worker : WorkerPc
  log : List Event
  signals : List CrCbHook
  passes : List Pass

/-- A signal arrives and the handler writes `current_hook`, or one of the threads goes on. -/
inductive AppLabel where
  | deliver (hook : CrCbHook)
  | handler (ret : ℕ → ℤ)
  | worker (r : ℤ)

/-- The process after a step of the worker. -/
def App.afterWorker (a : App F) (m : Move F WorkerPc) : App F :=
  { a with
    globals := m.globals
    worker := m.pc
    log := a.log ++ m.events
    passes := a.passes ++ m.pass.toList }

/-- The process after a step of the handler. -/
def App.afterHandler (a : App F) (m : Move F HandlerPc) : App F :=
  { a with globals := m.globals, handler := m.pc, log := a.log ++ m.events }

/-- The process after the handler has written `current_hook`. -/
def App.afterDeliver (a : App F) (hook : CrCbHook) : App F :=
  { a with
    globals := { a.globals with currentHook := some hook }
    handler := .running
    signals := a.signals ++ [hook] }

/-- One step of a process in which one thread gets all signals, with the message it sends. Its
`sa_mask` holds back every signal while the handler runs, in that thread only; a handler aborts
the process if there is no registry. -/
def appStep (a : App F) : AppLabel → Option (App F × Option CrCbStatus)
  | .deliver hook =>
    if a.handler = .idle ∧ a.globals.info.isSome then some (a.afterDeliver hook, none) else none
  | .handler ret => do
    let m ← handlerStep ret a.globals a.handler
    some (a.afterHandler m, m.message)
  | .worker r => do
    let m ← workerStep r a.globals a.worker
    some (a.afterWorker m, m.message)

/-- The worker is between its lock and the end of its pass. -/
def WorkerPc.inPass : WorkerPc → Bool
  | .entering | .looping _ | .calling _ => true
  | _ => false

/-- The kinds of steps a worker makes, with what each needs and leads to. -/
inductive WorkerMoves (r : ℤ) (g : Globals F) : WorkerPc → Move F WorkerPc → Prop
  | start : WorkerMoves r g .starting { globals := g, pc := .head }
  | stay (hrun : g.threadRunning = true) : WorkerMoves r g .head { globals := g, pc := .locking }
  | leave (hrun : g.threadRunning = false) : WorkerMoves r g .head { globals := g, pc := .ended }
  | lock (hfree : g.mutexLocked = false) :
      WorkerMoves r g .locking { globals := { g with mutexLocked := true }, pc := .entering }
  | unknown (hhook : g.currentHook = none) :
      WorkerMoves r g .entering { globals := g, pc := .testing (-1) }
  | enter {hook : CrCbHook} (hhook : g.currentHook = some hook) :
      WorkerMoves r g .entering { globals := g, pc := .looping ⟨hook, 0, []⟩ }
  | lost {p : Pass} (hhook : g.currentHook = none) :
      WorkerMoves r g (.looping p) { globals := g, pc := .testing 0, pass := some p }
  | call {p : Pass} {info : CrCbInfo F} {hook : CrCbHook} (hinfo : g.info = some info)
      (hhook : g.currentHook = some hook) (hidx : p.idx < cbCountRead hook info.crCbCount)
      (hruns : (info.entry p.table p.idx).runsIn .thread = true) :
      WorkerMoves r g (.looping p)
        { globals := g, pc := .calling { p with counts := p.counts ++ [hook] },
          events := [.called .thread p.table p.idx] }
  | skip {p : Pass} {info : CrCbInfo F} {hook : CrCbHook} (hinfo : g.info = some info)
      (hhook : g.currentHook = some hook) (hidx : p.idx < cbCountRead hook info.crCbCount)
      (hruns : (info.entry p.table p.idx).runsIn .thread = false) :
      WorkerMoves r g (.looping p)
        { globals := g,
          pc := .looping { p with counts := p.counts ++ [hook], idx := p.idx + 1 } }
  | finish {p : Pass} {info : CrCbInfo F} {hook : CrCbHook} (hinfo : g.info = some info)
      (hhook : g.currentHook = some hook) (hidx : cbCountRead hook info.crCbCount ≤ p.idx) :
      WorkerMoves r g (.looping p)
        { globals := g, pc := .testing 0, pass := some { p with counts := p.counts ++ [hook] } }
  | fail {p : Pass} (hr : r ≠ 0) :
      WorkerMoves r g (.calling p)
        { globals := g, pc := .testing r, events := [.returned .thread p.table p.idx r],
          pass := some p }
  | next {p : Pass} (hr : r = 0) :
      WorkerMoves r g (.calling p)
        { globals := g, pc := .looping { p with idx := p.idx + 1 },
          events := [.returned .thread p.table p.idx r] }
  | silent {r' : ℤ} (hmessage : workerMessage g r' = none) :
      WorkerMoves r g (.testing r') { globals := g, pc := .head }
  | report {r' : ℤ} {verdict : CrCbStatus} (hmessage : workerMessage g r' = some verdict) :
      WorkerMoves r g (.testing r') { globals := g, pc := .sending verdict }
  | send {verdict : CrCbStatus} :
      WorkerMoves r g (.sending verdict) { globals := g, pc := .head, message := some verdict }

/-- Every step of the worker is of one of these kinds. -/
theorem workerMoves_of_step {r : ℤ} {g : Globals F} {pc : WorkerPc} {m : Move F WorkerPc}
    (h : workerStep r g pc = some m) : WorkerMoves r g pc m := by
  cases pc with
  | starting =>
    simp only [workerStep] at h
    split at h <;> cases h
    exact .start
  | head =>
    cases hrun : g.threadRunning with
    | true =>
      simp only [workerStep, hrun, if_true, Option.some.injEq] at h
      exact h ▸ .stay hrun
    | false =>
      simp only [workerStep, hrun, Bool.false_eq_true, if_false, Option.some.injEq] at h
      exact h ▸ .leave hrun
  | locking =>
    simp only [workerStep, lockMutex] at h
    split at h <;> cases h
    exact .lock (Bool.eq_false_of_not_eq_true ‹_›)
  | entering =>
    simp only [workerStep] at h
    split at h
    · cases h
    · split at h <;> cases h
      · exact .unknown ‹_›
      · exact .enter ‹_›
  | looping p =>
    cases hinfo : g.info with
    | none => simp [workerStep, hinfo] at h
    | some info =>
      cases hhook : g.currentHook with
      | none =>
        simp only [workerStep, hinfo, hhook, Option.some.injEq] at h
        exact h ▸ .lost hhook
      | some hook =>
        simp only [workerStep, hinfo, hhook] at h
        split at h
        · rename_i hidx
          cases hruns : (info.entry p.table p.idx).runsIn .thread with
          | true =>
            simp only [hruns, if_true, Option.some.injEq] at h
            exact h ▸ .call hinfo hhook hidx hruns
          | false =>
            simp only [hruns, Bool.false_eq_true, if_false, Option.some.injEq] at h
            exact h ▸ .skip hinfo hhook hidx hruns
        · rename_i hidx
          simp only [Option.some.injEq] at h
          exact h ▸ .finish hinfo hhook (Nat.le_of_not_lt hidx)
  | calling p =>
    simp only [workerStep] at h
    split at h <;> cases h
    · exact .fail ‹_›
    · exact .next (not_not.mp ‹_›)
  | testing r' =>
    simp only [workerStep] at h
    split at h <;> cases h
    · exact .silent ‹_›
    · exact .report ‹_›
  | sending verdict => cases h; exact .send
  | ended => cases h

/-- A step of the worker leaves the registry, `thread_running` and `current_hook`. -/
theorem WorkerMoves.frame {r : ℤ} {g : Globals F} {pc : WorkerPc} {m : Move F WorkerPc}
    (h : WorkerMoves r g pc m) :
    m.globals.info = g.info ∧ m.globals.threadRunning = g.threadRunning ∧
      m.globals.currentHook = g.currentHook := by
  cases h <;> exact ⟨rfl, rfl, rfl⟩

/-- The kinds of steps a handler makes, with what each needs and leads to. -/
inductive HandlerMoves (ret : ℕ → ℤ) (g : Globals F) : HandlerPc → Move F HandlerPc → Prop
  | pass {calls : List ℕ} {r : ℤ} (hcalls : runCallbacks .signal ret g = some (calls, r)) :
      HandlerMoves ret g .running
        { globals := g, pc := .tested r, events := signalEvents g ret calls }
  | silent {r : ℤ} (hmessage : handlerMessage g r = none) :
      HandlerMoves ret g (.tested r) { globals := g, pc := .waking }
  | report {r : ℤ} {verdict : CrCbStatus} (hmessage : handlerMessage g r = some verdict) :
      HandlerMoves ret g (.tested r) { globals := g, pc := .sending verdict }
  | send {verdict : CrCbStatus} :
      HandlerMoves ret g (.sending verdict) { globals := g, pc := .waking, message := some verdict }
  | wake : HandlerMoves ret g .waking { globals := wakeWorker g, pc := .idle }

/-- Every step of the handler is of one of these kinds. -/
theorem handlerMoves_of_step {ret : ℕ → ℤ} {g : Globals F} {pc : HandlerPc} {m : Move F HandlerPc}
    (h : handlerStep ret g pc = some m) : HandlerMoves ret g pc m := by
  cases pc with
  | idle => cases h
  | running =>
    obtain ⟨⟨calls, r⟩, hcalls, hm⟩ := Option.bind_eq_some_iff.mp h
    cases hm
    exact .pass hcalls
  | tested r =>
    simp only [handlerStep] at h
    split at h <;> cases h
    · exact .silent ‹_›
    · exact .report ‹_›
  | sending verdict => cases h; exact .send
  | waking => cases h; exact .wake

/-- A step of the handler leaves the registry, `thread_running` and `current_hook`. -/
theorem HandlerMoves.frame {ret : ℕ → ℤ} {g : Globals F} {pc : HandlerPc} {m : Move F HandlerPc}
    (h : HandlerMoves ret g pc m) :
    m.globals.info = g.info ∧ m.globals.threadRunning = g.threadRunning ∧
      m.globals.currentHook = g.currentHook := by
  cases h with
  | wake => exact wakeWorker_frame g
  | _ => exact ⟨rfl, rfl, rfl⟩

end Kerrighed.Krgcb
