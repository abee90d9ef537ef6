import Mathlib.Logic.Function.Basic
import Kerrighed.Common.Runs
import Kerrighed.Krgcb.Threads

/-!
# A handler in every thread

The handler is installed with a full `sa_mask`, but that mask belongs to the thread that runs
the handler. A second signal that comes while one is handled goes to another thread, and the
worker is one of them. Here every thread can be in `handle_signal`, each at a place of its
own, and all of them share `current_hook` and the mutex.

A handler that is not alone cannot run its pass in one step, as it can in `appStep`: another
one may write `current_hook` in between. It reads `current_hook` once for the table, once more
before every entry for the count, and again for the verdict. While the worker is in its own
handler it does not go on with its loop.

The runs of `appStep` are those in which one thread other than the worker gets all signals.
-/

namespace Kerrighed.Krgcb

open Kerrighed.Common

variable {ι F : Type} [DecidableEq ι]

/-- Where the handler of a thread is: not running, in `run_callbacks` before the switch, at the
loop condition of its pass, inside a callback, behind the pass, in `send_message`, and at the
wake-up. -/
inductive SignalPc where
  | idle
  | entering
  | looping (table : CrCbHook) (idx : ℕ)
  | calling (table : CrCbHook) (idx : ℕ)
  | tested (r : ℤ)
  | sending (verdict : CrCbStatus)
  | waking
  deriving DecidableEq, Repr

/-- The next step of a handler after it has written `current_hook`, `r` being what the callback
returns if it is inside one; `none` if it is not running, or if it aborts the process. -/
def signalStep (r : ℤ) (g : Globals F) : SignalPc → Option (Move F SignalPc)
  | .idle => none
  | .entering =>
    match g.info with
    | none => none
    | some _ =>
      match g.currentHook with
      | none => some { globals := g, pc := .tested (-1) }
      | some hook => some { globals := g, pc := .looping hook 0 }
  | .looping table idx =>
    match g.info with
    | none => none
    | some info =>
      match g.currentHook with
      | none => some { globals := g, pc := .tested 0 }
      | some hook =>
        if idx < cbCountRead hook info.crCbCount then
          if (info.entry table idx).runsIn .signal then
            some { globals := g, pc := .calling table idx, events := [.called .signal table idx] }
          else some { globals := g, pc := .looping table (idx + 1) }
        else some { globals := g, pc := .tested 0 }
  | .calling table idx =>
    let events := [.returned .signal table idx r]
    if r ≠ 0 then some { globals := g, pc := .tested r, events := events }
    else some { globals := g, pc := .looping table (idx + 1), events := events }
  | .tested r' =>
    match handlerMessage g r' with
    | none => some { globals := g, pc := .waking }
    | some verdict => some { globals := g, pc := .sending verdict }
  | .sending verdict => some { globals := g, pc := .waking, message := some verdict }
  | .waking => some { globals := wakeWorker g, pc := .idle }

/-- A process with the handlers of its threads, the worker being the thread `none`, the calls
made, the signals delivered and the passes the worker has finished. -/
structure Threads (ι F : Type) where
  globals : Globals F
  handlers : Option ι → SignalPc
  worker : WorkerPc
  log : List Event
  signals : List CrCbHook
  passes : List Pass

/-- A signal arrives at a thread and its handler writes `current_hook`, the handler of a thread
goes on, or the worker does. -/
inductive ThreadsLabel (ι : Type) where
  | deliver (t : Option ι) (hook : CrCbHook)
  | handler (t : Option ι) (r : ℤ)
  | worker (r : ℤ)

/-- The process after a step of the worker. -/
def Threads.afterWorker (a : Threads ι F) (m : Move F WorkerPc) : Threads ι F :=
  { a with
    globals := m.globals
    worker := m.pc
    log := a.log ++ m.events
    passes := a.passes ++ m.pass.toList }

/-- The process after a step of a thread's handler. -/
def Threads.afterHandler (a : Threads ι F) (t : Option ι) (m : Move F SignalPc) : Threads ι F :=
  { a with
    globals := m.globals
    handlers := Function.update a.handlers t m.pc
    log := a.log ++ m.events }

/-- The process after the handler of a thread has written `current_hook`. -/
def Threads.afterDeliver (a : Threads ι F) (t : Option ι) (hook : CrCbHook) : Threads ι F :=
  { a with
    globals := { a.globals with currentHook := some hook }
    handlers := Function.update a.handlers t .entering
    signals := a.signals ++ [hook] }

/-- One step of the process, with the message it sends. A thread gets no signal while it handles
one, a worker that has ended gets none either, and a handler aborts the process if there is no
registry. -/
def threadsStep (a : Threads ι F) : ThreadsLabel ι → Option (Threads ι F × Option CrCbStatus)
  | .deliver t hook =>
    if a.handlers t = .idle ∧ (t = none → a.worker ≠ .ended) ∧ a.globals.info.isSome then
      some (a.afterDeliver t hook, none)
    else none
  | .handler t r => do
    let m ← signalStep r a.globals (a.handlers t)
    some (a.afterHandler t m, m.message)
  | .worker r =>
    if a.handlers none = .idle then do
      let m ← workerStep r a.globals a.worker
      some (a.afterWorker m, m.message)
    else none

/-- One step of the process, whatever it sends. -/
def wakeStep (a : Threads ι F) (l : ThreadsLabel ι) : Option (Threads ι F) :=
  (threadsStep a l).map Prod.fst

/-- A step of a handler is the wake-up that ends it, or leaves it running and the globals as they
are. -/
theorem signalStep_cases {r : ℤ} {g : Globals F} {pc : SignalPc} {m : Move F SignalPc}
    (h : signalStep r g pc = some m) :
    (pc = .waking ∧ m.pc = .idle ∧ m.globals = wakeWorker g) ∨
      (pc ≠ .idle ∧ pc ≠ .waking ∧ m.pc ≠ .idle ∧ m.globals = g) := by
  cases pc with
  | idle => cases h
  | entering =>
    simp only [signalStep] at h
    split at h
    · cases h
    · split at h <;> cases h <;> simp
  | looping table idx =>
    simp only [signalStep] at h
    split at h
    · cases h
    · split at h
      · cases h
        simp
      · split at h
        · split at h <;> cases h <;> simp
        · cases h
          simp
  | calling table idx =>
    simp only [signalStep] at h
    split at h <;> cases h <;> simp
  | tested r' =>
    simp only [signalStep] at h
    split at h <;> cases h <;> simp
  | sending verdict =>
    cases h
    simp
  | waking =>
    cases h
    simp

/-- A step of a handler leaves `thread_running` and `current_hook`. -/
theorem signalStep_frame {r : ℤ} {g : Globals F} {pc : SignalPc} {m : Move F SignalPc}
    (hm : signalStep r g pc = some m) :
    m.globals.threadRunning = g.threadRunning ∧ m.globals.currentHook = g.currentHook := by
  rcases signalStep_cases hm with ⟨-, -, hglobals⟩ | ⟨-, -, -, hglobals⟩
  · rw [hglobals]
    exact (wakeWorker_frame g).2
  · rw [hglobals]
    exact ⟨rfl, rfl⟩

/-- What a process does in one step: a thread gets a signal, a thread's handler makes a move, or the
worker does while its own handler is not running. -/
theorem threadsStep_cases {a b : Threads ι F} {l : ThreadsLabel ι} {message : Option CrCbStatus}
    (h : threadsStep a l = some (b, message)) :
    (∃ t hook, l = .deliver t hook ∧ a.handlers t = .idle ∧ b = a.afterDeliver t hook ∧
        message = none) ∨
      (∃ t r m, l = .handler t r ∧ signalStep r a.globals (a.handlers t) = some m ∧
        b = a.afterHandler t m ∧ message = m.message) ∨
      (∃ r m, l = .worker r ∧ a.handlers none = .idle ∧ WorkerMoves r a.globals a.worker m ∧
        b = a.afterWorker m ∧ message = m.message) := by
  cases l with
  | deliver t hook =>
    simp only [threadsStep] at h
    split at h
    · rename_i hready
      cases h
      exact Or.inl ⟨t, hook, rfl, hready.1, rfl, rfl⟩
    · cases h
  | handler t r =>
    obtain ⟨m, hm, hb⟩ := Option.bind_eq_some_iff.mp h
    cases hb
    exact Or.inr (Or.inl ⟨t, r, m, rfl, hm, rfl, rfl⟩)
  | worker r =>
    simp only [threadsStep] at h
    split at h
    · rename_i hidle
      obtain ⟨m, hm, hb⟩ := Option.bind_eq_some_iff.mp h
      cases hb
      exact Or.inr (Or.inr ⟨r, m, rfl, hidle, workerMoves_of_step hm, rfl, rfl⟩)
    · cases h

/-- The process with the handler of a thread at another place, after further calls. -/
def Threads.place (a : Threads ι F) (t : Option ι) (pc : SignalPc) (events : List Event) :
    Threads ι F :=
  { a with handlers := Function.update a.handlers t pc, log := a.log ++ events }

/-- A move of a handler that neither touches the globals nor sends anything. -/
theorem wakeStep_place {a : Threads ι F} {t : Option ι} {pc pc' : SignalPc} {r : ℤ}
    {events more : List Event}
    (h : signalStep r a.globals pc = some { globals := a.globals, pc := pc', events := more }) :
    wakeStep (a.place t pc events) (.handler t r) = some (a.place t pc' (events ++ more)) := by
  simp [wakeStep, threadsStep, Threads.place, Threads.afterHandler, h]

/-- A handler that nobody disturbs makes the calls that `runEntries` gives for the rest of its
pass. -/
theorem run_signalPass {a : Threads ι F} (t : Option ι) {info : CrCbInfo F} {hook : CrCbHook}
    (hinfo : a.globals.info = some info) (hhook : a.globals.currentHook = some hook)
    (ret : ℕ → ℤ) (idx : ℕ) (events : List Event) :
    ∃ labels, run wakeStep (a.place t (.looping hook idx) events) labels =
      some (a.place t
        (.tested (runEntries .signal ret idx ((info.registered hook).drop idx)).2)
        (events ++ signalEvents a.globals ret
          (runEntries .signal ret idx ((info.registered hook).drop idx)).1)) := by
  by_cases hidx : idx < cbCountRead hook info.crCbCount
  · rw [runEntries_drop_of_lt .signal ret hidx]
    cases hruns : (info.entry hook idx).runsIn .signal with
    | false =>
      have hskip : signalStep 0 a.globals (.looping hook idx) =
          some { globals := a.globals, pc := .looping hook (idx + 1) } := by
        simp [signalStep, hinfo, hhook, hidx, hruns]
      obtain ⟨labels, hrest⟩ := run_signalPass t hinfo hhook ret (idx + 1) events
      refine ⟨.handler t 0 :: labels, ?_⟩
      simp [run, wakeStep_place hskip, hrest]
    | true =>
      have hcall : signalStep 0 a.globals (.looping hook idx) =
          some { globals := a.globals, pc := .calling hook idx,
                 events := [.called .signal hook idx] } := by
        simp [signalStep, hinfo, hhook, hidx, hruns]
      by_cases hret : ret idx = 0
      · have hnext : signalStep (ret idx) a.globals (.calling hook idx) =
            some { globals := a.globals, pc := .looping hook (idx + 1),
                   events := [.returned .signal hook idx (ret idx)] } := by
          simp [signalStep, hret]
        obtain ⟨labels, hrest⟩ := run_signalPass t hinfo hhook ret (idx + 1)
          (events ++ [.called .signal hook idx] ++ [.returned .signal hook idx (ret idx)])
        refine ⟨.handler t 0 :: .handler t (ret idx) :: labels, ?_⟩
        simp only [run, wakeStep_place hcall, wakeStep_place hnext, Option.bind_some, hrest]
        simp [hret, signalEvents, hhook]
      · have hfail : signalStep (ret idx) a.globals (.calling hook idx) =
            some { globals := a.globals, pc := .tested (ret idx),
                   events := [.returned .signal hook idx (ret idx)] } := by
          simp [signalStep, hret]
        refine ⟨[.handler t 0, .handler t (ret idx)], ?_⟩
        simp only [run, wakeStep_place hcall, wakeStep_place hfail, Option.bind_some]
        simp [hret, signalEvents, hhook]
  · have hend : signalStep 0 a.globals (.looping hook idx) =
        some { globals := a.globals, pc := .tested 0 } := by
      simp [signalStep, hinfo, hhook, hidx]
    rw [runEntries_drop_of_le .signal ret (Nat.le_of_not_lt hidx)]
    refine ⟨[.handler t 0], ?_⟩
    simp [run, wakeStep_place hend, signalEvents, hhook]
  termination_by cbCountRead hook info.crCbCount - idx

/-- The place of a handler that runs its pass in one step. -/
def HandlerPc.signalPc : HandlerPc → SignalPc
  | .idle => .idle
  | .running => .entering
  | .tested r => .tested r
  | .sending verdict => .sending verdict
  | .waking => .waking

/-- The process as one of a worker and one other thread, which gets all signals. -/
def App.threads (a : App F) : Threads Unit F :=
  { globals := a.globals
    handlers := Function.update (fun _ => .idle) (some ()) a.handler.signalPc
    worker := a.worker
    log := a.log
    signals := a.signals
    passes := a.passes }

/-- A step that both handlers make in the same way. -/
theorem run_handler {a : App F} {m : Move F HandlerPc} {r : ℤ}
    (h : signalStep r a.globals a.handler.signalPc =
      some { globals := m.globals, pc := m.pc.signalPc, events := m.events, message := m.message }) :
    run wakeStep a.threads [.handler (some ()) r] = some (a.afterHandler m).threads := by
  simp [run, wakeStep, threadsStep, App.threads, h, Threads.afterHandler, App.afterHandler]

/-- A step of the handler in `appStep` is a run of the handler of the other thread. -/
theorem handlerMoves_threads {a : App F} {ret : ℕ → ℤ} {m : Move F HandlerPc}
    (hm : HandlerMoves ret a.globals a.handler m) (hinfo : a.globals.info ≠ none) :
    ∃ labels, run wakeStep a.threads labels = some (a.afterHandler m).threads := by
  obtain ⟨info, hinfo⟩ := Option.ne_none_iff_exists'.mp hinfo
  obtain ⟨g, handler, worker, log, signals, passes⟩ := a
  cases hm with
  | @pass calls r hcalls =>
    simp only at hinfo hcalls
    cases hhook : g.currentHook with
    | none =>
      simp only [runCallbacks, hinfo, hhook, Option.some.injEq, Prod.mk.injEq] at hcalls
      obtain ⟨rfl, rfl⟩ := hcalls
      exact ⟨_, run_handler (r := 0)
        (by simp [HandlerPc.signalPc, signalStep, hinfo, hhook, signalEvents])⟩
    | some hook =>
      simp only [runCallbacks, hinfo, hhook, Option.some.injEq] at hcalls
      set s : Threads Unit F := (App.mk g .running worker log signals passes).threads with hs
      have henter : wakeStep s (.handler (some ()) 0) =
          some (s.place (some ()) (.looping hook 0) []) := by
        simp [wakeStep, threadsStep, hs, App.threads, HandlerPc.signalPc, signalStep, hinfo, hhook,
          Threads.afterHandler, Threads.place]
      obtain ⟨labels, hpass⟩ := run_signalPass (a := s) (some ()) hinfo hhook ret 0 []
      rw [List.drop_zero, hcalls] at hpass
      refine ⟨.handler (some ()) 0 :: labels, ?_⟩
      simp only [run, henter, Option.bind_some, hpass]
      simp [hs, App.threads, App.afterHandler, HandlerPc.signalPc, Threads.place]
  | @silent r hmessage =>
    have hnone : handlerMessage g r = none := hmessage
    exact ⟨_, run_handler (r := 0) (by simp [HandlerPc.signalPc, signalStep, hnone])⟩
  | @report r verdict hmessage =>
    have hsome : handlerMessage g r = some verdict := hmessage
    exact ⟨_, run_handler (r := 0) (by simp [HandlerPc.signalPc, signalStep, hsome])⟩
  | send => exact ⟨_, run_handler (r := 0) rfl⟩
  | wake => exact ⟨_, run_handler (r := 0) rfl⟩

/-- Every step of `appStep` in a process with a registry is a run in which one thread gets all
signals. -/
theorem appStep_threads {a b : App F} {l : AppLabel} {message : Option CrCbStatus}
    (hinfo : a.globals.info ≠ none) (h : appStep a l = some (b, message)) :
    ∃ labels, run wakeStep a.threads labels = some b.threads := by
  cases l with
  | deliver hook =>
    simp only [appStep] at h
    split at h
    · rename_i hready
      cases h
      refine ⟨[.deliver (some ()) hook], ?_⟩
      simp [run, wakeStep, threadsStep, App.threads, HandlerPc.signalPc, hready.1, hready.2,
        Threads.afterDeliver, App.afterDeliver]
    · cases h
  | handler ret =>
    obtain ⟨m, hm, hb⟩ := Option.bind_eq_some_iff.mp h
    cases hb
    exact handlerMoves_threads (handlerMoves_of_step hm) hinfo
  | worker r =>
    obtain ⟨m, hm, hb⟩ := Option.bind_eq_some_iff.mp h
    cases hb
    refine ⟨[.worker r], ?_⟩
    simp [run, wakeStep, threadsStep, App.threads, hm, Threads.afterWorker, App.afterWorker]

/-- A step of `appStep` leaves the registry. -/
theorem appStep_info {a b : App F} {l : AppLabel} {message : Option CrCbStatus}
    (h : appStep a l = some (b, message)) : b.globals.info = a.globals.info := by
  cases l with
  | deliver hook =>
    simp only [appStep] at h
    split at h <;> cases h
    rfl
  | handler ret =>
    obtain ⟨m, hm, hb⟩ := Option.bind_eq_some_iff.mp h
    cases hb
    exact (handlerMoves_of_step hm).frame.1
  | worker r =>
    obtain ⟨m, hm, hb⟩ := Option.bind_eq_some_iff.mp h
    cases hb
    exact (workerMoves_of_step hm).frame.1

/-- The runs of `appStep` are runs of a process with a handler in every thread. -/
theorem run_threads {a b : App F} {labels : List AppLabel} (hinfo : a.globals.info ≠ none)
    (h : run (fun a l => (appStep a l).map Prod.fst) a labels = some b) :
    ∃ labels', run wakeStep a.threads labels' = some b.threads := by
  induction labels generalizing a with
  | nil => exact ⟨[], congrArg (some ∘ App.threads) (Option.some.inj h)⟩
  | cons l rest ih =>
    obtain ⟨c, hstep, hrest⟩ := Option.bind_eq_some_iff.mp h
    obtain ⟨⟨c', message⟩, happ, rfl⟩ := Option.map_eq_some_iff.mp hstep
    obtain ⟨first, hfirst⟩ := appStep_threads hinfo happ
    obtain ⟨more, hmore⟩ := ih (appStep_info happ ▸ hinfo) hrest
    exact ⟨first ++ more, (run_append hfirst).trans hmore⟩

end Kerrighed.Krgcb
