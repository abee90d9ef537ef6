import Kerrighed.Krgcb.Threads

/-!
# Starting and stopping the worker thread

A registration for the worker thread starts it if `thread_running` is not set. The start locks
the mutex, sets the flag and creates the thread, and signals, the handler and the workers can
come in between; so the calling thread makes these steps one by one here. Every other call of
the library is one step.

The mutex is never released by `cr_callback_exit` or by a failed creation, and a worker that
waits for it does not see the flag cleared. One start is harmless; another one is if the old
worker is gone and a signal handler has released the mutex since it was last taken.
-/

namespace Kerrighed.Krgcb

open Kerrighed.Common

variable {F : Type}

/-- A callback to be registered for the worker thread. -/
structure Registration (F : Type) where
  hook : CrCbHook
  func : Option F
  arg : ℕ
  deriving DecidableEq, Repr

/-- Where the thread that calls the library is: outside of it, before the lock in
`initialize_cb_thread`, before the flag is set, before the thread is created, and back in
`register_callback`. -/
inductive MainPc (F : Type) where
  | idle
  | locking (registration : Registration F)
  | marking (registration : Registration F)
  | creating (registration : Registration F)
  | appending (registration : Registration F)
  deriving DecidableEq, Repr

/-- The calling thread is outside of the library. -/
def MainPc.outside : MainPc F → Bool
  | .idle => true
  | _ => false

/-- The calling thread is inside `initialize_cb_thread`. -/
def MainPc.starting : MainPc F → Bool
  | .locking _ | .marking _ | .creating _ => true
  | _ => false

/-- The calling thread is about to take the mutex. -/
def MainPc.locks : MainPc F → Bool
  | .locking _ => true
  | _ => false

/-- A process with all its threads. It is recorded whether `initialize_cb_thread` has been called,
and whether a handler has released the mutex since it was last taken. -/
structure Life (F : Type) where
  process : Process F
  main : MainPc F
  handler : HandlerPc
  threads : List WorkerPc
  started : Bool
  woken : Bool

/-- The process before its first call. -/
def Life.fresh : Life F := ⟨.fresh, .idle, .idle, [], false, false⟩

/-- A call of the library, the next step of the calling thread inside one, a signal, or a step of
one of the other threads. -/
inductive LifeLabel (F : Type) where
  | init (o : InitOutcome)
  | exit
  | register (hook : CrCbHook) (func : Option F) (arg : ℕ) (context : CrCbContext)
  | main (create : ℤ)
  | deliver (hook : CrCbHook)
  | handler (ret : ℕ → ℤ)
  | worker (thread : ℕ) (r : ℤ)

/-- Fill the table, at the end of a registration. -/
def Life.append (s : Life F) (hook : CrCbHook) (func : Option F) (arg : ℕ) (context : CrCbContext) :
    Option (Life F) :=
  (appendCallback hook func arg context s.process).toOption.map fun result =>
    { s with process := result.2, main := .idle }

/-- The next step of the calling thread inside a registration that starts the worker. -/
def mainStep (create : ℤ) (s : Life F) : Option (Life F) :=
  match s.main with
  | .idle => none
  | .locking registration =>
    (lockMutex s.process.toGlobals).map fun g =>
      { s with
        process := { s.process with toGlobals := g }
        main := .marking registration
        woken := false }
  | .marking registration =>
    some { s with
      process := { s.process with threadRunning := true }
      main := .creating registration }
  | .creating registration =>
    if create ≠ 0 then
      some { s with
        process := { s.process with toGlobals := freeInfoMemory s.process.toGlobals }
        main := .idle }
    else
      some { s with
        process := { s.process with workers := s.process.workers + 1 }
        main := .appending registration
        threads := s.threads ++ [.starting] }
  | .appending registration =>
    s.append registration.hook registration.func registration.arg .thread

/-- One step of the process. -/
def lifeStep (s : Life F) : LifeLabel F → Option (Life F)
  | .init o =>
    if s.main.outside then some { s with process := (crCallbackInit o s.process).2 } else none
  | .exit =>
    if s.main.outside then
      (crCallbackExit s.process).toOption.map fun p => { s with process := p }
    else none
  | .register hook func arg context =>
    if s.main.outside ∧ s.process.info.isSome then
      if context = .thread ∧ s.process.threadRunning = false then
        some { s with main := .locking ⟨hook, func, arg⟩, started := true }
      else s.append hook func arg context
    else none
  | .main create => mainStep create s
  | .deliver hook =>
    if s.handler = .idle ∧ s.process.handlers hook ∧ s.process.info.isSome then
      some { s with process := { s.process with currentHook := some hook }, handler := .running }
    else none
  | .handler ret => do
    let m ← handlerStep ret s.process.toGlobals s.handler
    some { s with
      process := { s.process with toGlobals := m.globals }
      handler := m.pc
      woken := s.woken || (s.handler = .waking && s.process.threadRunning) }
  | .worker thread r => do
    let pc ← s.threads[thread]?
    let m ← workerStep r s.process.toGlobals pc
    some { s with
      process := { s.process with toGlobals := m.globals }
      threads := s.threads.set thread m.pc
      woken := s.woken && pc ≠ .locking }

/-- The number of worker threads that have not ended. -/
def live (threads : List WorkerPc) : ℕ := threads.countP (· ≠ .ended)

/-- The mutex is free when the calling thread is about to take it, there is at most one worker, and
there is one if `thread_running` is set outside `initialize_cb_thread`. -/
def Disciplined (s : Life F) : Prop :=
  (s.main.locks = true → s.process.mutexLocked = false) ∧ live s.threads ≤ 1 ∧
    (s.process.threadRunning = true → s.main.starting = false → live s.threads = 1)

instance : DecidablePred (Disciplined (F := F)) := fun s =>
  inferInstanceAs (Decidable ((s.main.locks = true → s.process.mutexLocked = false) ∧
    live s.threads ≤ 1 ∧
    (s.process.threadRunning = true → s.main.starting = false → live s.threads = 1)))

/-- A registration that has to start the worker is the first one to do so, or no worker is left and
a handler has released the mutex since it was last taken. -/
def StartsCleanly (s : Life F) : LifeLabel F → Prop
  | .register _ _ _ context => context = .thread → s.process.threadRunning = false →
      s.started = false ∨ (s.woken = true ∧ live s.threads = 0)
  | _ => True

instance : ∀ (s : Life F) l, Decidable (StartsCleanly s l)
  | s, .register _ _ _ context => inferInstanceAs (Decidable (context = .thread →
      s.process.threadRunning = false →
      s.started = false ∨ (s.woken = true ∧ live s.threads = 0)))
  | _, .init _ | _, .exit | _, .main _ | _, .deliver _ | _, .handler _ | _, .worker _ _ =>
    inferInstanceAs (Decidable True)

/-- The invariant of the runs whose starts are clean. -/
structure LifeInv (s : Life F) : Prop where
  free : s.main.locks = true → s.process.mutexLocked = false
  noneYet : s.main.starting = true → live s.threads = 0
  single : live s.threads ≤ 1
  alive : s.process.threadRunning = true → s.main.starting = false → live s.threads = 1
  woken : s.woken = true → s.process.mutexLocked = false
  fresh : s.started = false → s.process.mutexLocked = false ∧ live s.threads = 0
  begun : s.main.starting = true → s.started = true
  held : s.started = true → s.main.locks = false → s.woken = false → s.process.mutexLocked = true

/-- Outside of the library the calling thread is not inside `initialize_cb_thread`. -/
theorem MainPc.starting_of_outside {main : MainPc F} (h : main.outside = true) :
    main.starting = false := by
  cases main <;> simp [MainPc.outside, MainPc.starting] at h ⊢

/-- The lock is taken inside `initialize_cb_thread`. -/
theorem MainPc.starting_of_locks {main : MainPc F} (h : main.locks = true) :
    main.starting = true := by
  cases main <;> simp [MainPc.locks, MainPc.starting] at h ⊢

/-- Outside `initialize_cb_thread` no lock is taken. -/
theorem MainPc.locks_of_not_starting {main : MainPc F} (h : main.starting = false) :
    main.locks = false := by
  cases main <;> simp [MainPc.locks, MainPc.starting] at h ⊢

/-- Initializing the library leaves the mutex and does not set `thread_running`. -/
theorem crCallbackInit_worker (o : InitOutcome) (p : Process F) :
    (crCallbackInit o p).2.mutexLocked = p.mutexLocked ∧
      ((crCallbackInit o p).2.threadRunning = true → p.threadRunning = true) := by
  by_cases hsucceed : o.Succeeds
  · rw [crCallbackInit_of_succeeds hsucceed]
    exact ⟨rfl, fun h => h⟩
  · obtain ⟨r, -, heq⟩ := crCallbackInit_of_not_succeeds hsucceed p
    rw [heq]
    exact ⟨rfl, fun h => absurd h (by simp [freeInfoMemory])⟩

/-- Filling a table leaves the mutex and `thread_running`. -/
theorem appendCallback_worker {hook : CrCbHook} {func : Option F} {arg : ℕ} {context : CrCbContext}
    {p q : Process F} {r : ℤ} (h : appendCallback hook func arg context p = .ok (r, q)) :
    q.mutexLocked = p.mutexLocked ∧ q.threadRunning = p.threadRunning := by
  cases hinfo : p.info with
  | none => simp [appendCallback, hinfo] at h
  | some info =>
    rcases appendCallback_cases hinfo h with ⟨-, info', rfl, -⟩ | ⟨-, rfl⟩ <;> exact ⟨rfl, rfl⟩

/-- A worker ends only when it finds `thread_running` cleared. -/
theorem WorkerMoves.running_of_ended {r : ℤ} {g : Globals F} {pc : WorkerPc} {m : Move F WorkerPc}
    (h : WorkerMoves r g pc m) (hended : m.pc = .ended) : g.threadRunning = false := by
  cases h <;> simp_all

/-- A worker changes the globals only by taking the mutex. -/
theorem WorkerMoves.mutex {r : ℤ} {g : Globals F} {pc : WorkerPc} {m : Move F WorkerPc}
    (h : WorkerMoves r g pc m) :
    (pc = .locking ∧ m.globals = { g with mutexLocked := true }) ∨
      (pc ≠ .locking ∧ m.globals = g) := by
  cases h <;> simp

/-- The handler leaves the mutex until it wakes a worker, and then releases it. -/
theorem HandlerMoves.mutex {ret : ℕ → ℤ} {g : Globals F} {pc : HandlerPc} {m : Move F HandlerPc}
    (h : HandlerMoves ret g pc m) :
    m.globals.mutexLocked = (g.mutexLocked && !(pc = .waking && g.threadRunning)) := by
  cases h with
  | wake =>
    unfold wakeWorker
    cases g.threadRunning <;> simp
  | _ => simp

/-- The number of workers after a step of one of them. -/
theorem live_set {threads : List WorkerPc} {i : ℕ} {pc : WorkerPc}
    (hpc : threads[i]? = some pc) (hlive : pc ≠ .ended) (pc' : WorkerPc) :
    live (threads.set i pc') + 1 = live threads + if pc' = .ended then 0 else 1 := by
  obtain ⟨hi, hget⟩ := List.getElem?_eq_some_iff.mp hpc
  have hpos : 0 < live threads := List.countP_pos_iff.mpr ⟨pc, List.mem_of_getElem? hpc, by simpa⟩
  have hset : live (threads.set i pc') = live threads - 1 + if pc' = .ended then 0 else 1 := by
    rw [live, List.countP_set hi, hget]
    by_cases hended : pc' = .ended <;> simp [live, hlive, hended]
  rw [hset]
  omega

/-- A call that returns keeps the invariant if it leaves the mutex and does not set
`thread_running`. -/
theorem LifeInv.returned {s : Life F} (h : LifeInv s) (hmain : s.main.starting = false)
    {q : Process F} {main : MainPc F} (hq : q.mutexLocked = s.process.mutexLocked ∧
      (q.threadRunning = true → s.process.threadRunning = true)) (hmain' : main.starting = false) :
    LifeInv { s with process := q, main := main } := by
  obtain ⟨hmutex, hrunning⟩ := hq
  refine ⟨fun hlocks => ?_, fun hstarting => ?_, h.single, fun hrun _ => ?_, fun hwoken => ?_,
    fun hfresh => ?_, fun hstarting => ?_, fun hstarted _ hwoken => ?_⟩
  · exact absurd (MainPc.starting_of_locks hlocks) (by simp [hmain'])
  · exact absurd hstarting (by simp [hmain'])
  · exact h.alive (hrunning hrun) hmain
  · exact hmutex.trans (h.woken hwoken)
  · exact ⟨hmutex.trans (h.fresh hfresh).1, (h.fresh hfresh).2⟩
  · exact absurd hstarting (by simp [hmain'])
  · exact hmutex.trans (h.held hstarted (MainPc.locks_of_not_starting hmain) hwoken)

/-- Filling the table at the end of a registration keeps the invariant. -/
theorem LifeInv.append {s t : Life F} (h : LifeInv s) (hmain : s.main.starting = false)
    {hook : CrCbHook} {func : Option F} {arg : ℕ} {context : CrCbContext}
    (happend : s.append hook func arg context = some t) : LifeInv t := by
  obtain ⟨⟨r, q⟩, hok, rfl⟩ := Option.map_eq_some_iff.mp happend
  cases hcall : appendCallback hook func arg context s.process with
  | error halt => simp [hcall, Except.toOption] at hok
  | ok result =>
    obtain rfl : result = (r, q) := by simpa [hcall, Except.toOption] using hok
    obtain ⟨hmutex, hrunning⟩ := appendCallback_worker hcall
    exact h.returned hmain ⟨hmutex, fun hrun => hrunning ▸ hrun⟩ rfl

/-- The steps of a registration that starts the worker keep the invariant. -/
theorem LifeInv.mainStep {s t : Life F} (h : LifeInv s) {create : ℤ}
    (hstep : mainStep create s = some t) : LifeInv t := by
  cases hmain : s.main with
  | idle => simp [Krgcb.mainStep, hmain] at hstep
  | locking registration =>
    have hstarting : s.main.starting = true := by rw [hmain]; rfl
    have hbegun := h.begun hstarting
    simp only [Krgcb.mainStep, hmain, lockMutex] at hstep
    split at hstep
    · cases hstep
    · obtain rfl := Option.some.inj hstep
      refine ⟨by simp [MainPc.locks], fun _ => h.noneYet hstarting, h.single, fun _ hnot => ?_,
        by simp, fun hfresh => ?_, fun _ => hbegun, fun _ _ _ => rfl⟩
      · simp [MainPc.starting] at hnot
      · exact absurd hfresh (by simp [hbegun])
  | marking registration =>
    have hstarting : s.main.starting = true := by rw [hmain]; rfl
    have hlocks : s.main.locks = false := by rw [hmain]; rfl
    simp only [Krgcb.mainStep, hmain] at hstep
    obtain rfl := Option.some.inj hstep
    refine ⟨by simp [MainPc.locks], fun _ => h.noneYet hstarting, h.single, fun _ hnot => ?_,
      h.woken, h.fresh, fun _ => h.begun hstarting, fun hstarted _ => h.held hstarted hlocks⟩
    simp [MainPc.starting] at hnot
  | creating registration =>
    have hstarting : s.main.starting = true := by rw [hmain]; rfl
    have hlocks : s.main.locks = false := by rw [hmain]; rfl
    have hlive := h.noneYet hstarting
    have hbegun := h.begun hstarting
    simp only [Krgcb.mainStep, hmain] at hstep
    split at hstep
    · obtain rfl := Option.some.inj hstep
      exact ⟨by simp [MainPc.locks], by simp [MainPc.starting], h.single,
        by simp [freeInfoMemory], h.woken, h.fresh, by simp [MainPc.starting],
        fun hstarted _ => h.held hstarted hlocks⟩
    · obtain rfl := Option.some.inj hstep
      have hone : live (s.threads ++ [.starting]) = 1 := by
        simp only [live, List.countP_append] at hlive ⊢
        rw [hlive]
        rfl
      refine ⟨by simp [MainPc.locks], by simp [MainPc.starting], hone.le, fun _ _ => hone, h.woken,
        fun hfresh => ?_, by simp [MainPc.starting], fun hstarted _ => h.held hstarted hlocks⟩
      exact absurd hfresh (by simp [hbegun])
  | appending registration =>
    simp only [Krgcb.mainStep, hmain] at hstep
    exact h.append (by rw [hmain]; rfl) hstep

/-- A step of a worker keeps the invariant. -/
theorem LifeInv.worker {s : Life F} (h : LifeInv s) {thread : ℕ} {r : ℤ} {pc : WorkerPc}
    {m : Move F WorkerPc} (hpc : s.threads[thread]? = some pc)
    (hm : WorkerMoves r s.process.toGlobals pc m) :
    LifeInv { s with
      process := { s.process with toGlobals := m.globals }
      threads := s.threads.set thread m.pc
      woken := s.woken && pc ≠ .locking } := by
  obtain ⟨-, hrunning, -⟩ := hm.frame
  have halive : pc ≠ .ended := by cases hm <;> simp
  have hset := live_set hpc halive m.pc
  have hone := h.single
  have hpos : 0 < live s.threads :=
    List.countP_pos_iff.mpr ⟨pc, List.mem_of_getElem? hpc, by simpa using halive⟩
  have hlive : live s.threads = 1 := le_antisymm hone hpos
  have hstarting : s.main.starting = false := by
    by_contra hstarting
    exact absurd (h.noneYet (by simpa using hstarting)) (by omega)
  have hstarted : s.started = true := by
    by_contra hstarted
    exact absurd (h.fresh (by simpa using hstarted)).2 (by omega)
  refine ⟨fun hlocks => ?_, fun hnot => ?_, ?_, fun hrun _ => ?_, fun hwoken => ?_,
    fun hfresh => ?_, fun _ => hstarted, fun _ hlocks hwoken => ?_⟩
  · exact absurd (MainPc.starting_of_locks hlocks) (by simp [hstarting])
  · exact absurd hnot (by simp [hstarting])
  · change live (s.threads.set thread m.pc) ≤ 1
    split at hset <;> omega
  · change live (s.threads.set thread m.pc) = 1
    have hnot : m.pc ≠ .ended := fun hended => by
      have hstopped := hm.running_of_ended hended
      exact absurd (hrunning.symm.trans hrun) (by simp [hstopped])
    rw [if_neg hnot] at hset
    omega
  · simp only [Bool.and_eq_true, decide_eq_true_eq] at hwoken
    rcases hm.mutex with ⟨hlocking, -⟩ | ⟨-, hsame⟩
    · exact absurd hlocking hwoken.2
    · exact (congrArg Globals.mutexLocked hsame).trans (h.woken hwoken.1)
  · exact absurd hfresh (by simp [hstarted])
  · rcases hm.mutex with ⟨-, htaken⟩ | ⟨hnot, hsame⟩
    · exact congrArg Globals.mutexLocked htaken
    · refine (congrArg Globals.mutexLocked hsame).trans (h.held hstarted hlocks ?_)
      simpa [hnot] using hwoken

/-- A step of the handler keeps the invariant. -/
theorem LifeInv.handler {s : Life F} (h : LifeInv s) {ret : ℕ → ℤ} {m : Move F HandlerPc}
    (hm : HandlerMoves ret s.process.toGlobals s.handler m) :
    LifeInv { s with
      process := { s.process with toGlobals := m.globals }
      handler := m.pc
      woken := s.woken || (s.handler = .waking && s.process.threadRunning) } := by
  obtain ⟨-, hrunning, -⟩ := hm.frame
  have hmutex := hm.mutex
  have hfree (hfree : s.process.mutexLocked = false) : m.globals.mutexLocked = false := by
    rw [hmutex, hfree, Bool.false_and]
  refine ⟨fun hlocks => hfree (h.free hlocks), h.noneYet, h.single, fun hrun hmain => ?_,
    fun hwoken => ?_, fun hfresh => ?_, h.begun, fun hstarted hlocks hwoken => ?_⟩
  · exact h.alive (hrunning.symm.trans hrun) hmain
  · rcases (Bool.or_eq_true _ _).mp hwoken with hwoken | hwake
    · exact hfree (h.woken hwoken)
    · exact hmutex.trans (by rw [hwake, Bool.not_true, Bool.and_false])
  · exact ⟨hfree (h.fresh hfresh).1, (h.fresh hfresh).2⟩
  · obtain ⟨hnot, hwake⟩ := (Bool.or_eq_false_iff).mp hwoken
    exact hmutex.trans (by rw [hwake, h.held hstarted hlocks hnot]; rfl)

/-- Every step that meets the condition keeps the invariant. -/
theorem lifeStep_inv {s t : Life F} {l : LifeLabel F} (h : LifeInv s) (hcond : StartsCleanly s l)
    (hstep : lifeStep s l = some t) : LifeInv t := by
  cases l with
  | init o =>
    simp only [lifeStep] at hstep
    split at hstep
    · rename_i houtside
      obtain rfl := Option.some.inj hstep
      have hmain := MainPc.starting_of_outside houtside
      exact h.returned hmain (crCallbackInit_worker o s.process) hmain
    · cases hstep
  | exit =>
    simp only [lifeStep] at hstep
    split at hstep
    · rename_i houtside
      have hmain := MainPc.starting_of_outside houtside
      cases hinfo : s.process.info with
      | none => simp [crCallbackExit, hinfo, Except.toOption] at hstep
      | some info =>
        simp only [crCallbackExit, hinfo, Except.toOption, Option.map_some,
          Option.some.injEq] at hstep
        subst t
        exact h.returned hmain ⟨rfl, fun hrun => absurd hrun (by simp [freeInfoMemory])⟩ hmain
    · cases hstep
  | register hook func arg context =>
    simp only [lifeStep] at hstep
    split at hstep
    · rename_i hready
      have hmain := MainPc.starting_of_outside hready.1
      split at hstep
      · rename_i hneeded
        obtain rfl := Option.some.inj hstep
        have hclean : s.process.mutexLocked = false ∧ live s.threads = 0 := by
          rcases hcond hneeded.1 hneeded.2 with hfresh | ⟨hwoken, hlive⟩
          · exact h.fresh hfresh
          · exact ⟨h.woken hwoken, hlive⟩
        exact ⟨fun _ => hclean.1, fun _ => hclean.2, h.single, by simp [MainPc.starting], h.woken,
          by simp, fun _ => rfl, by simp [MainPc.locks]⟩
      · exact h.append hmain hstep
    · cases hstep
  | main create => exact h.mainStep hstep
  | deliver hook =>
    simp only [lifeStep] at hstep
    split at hstep
    · obtain rfl := Option.some.inj hstep
      exact ⟨h.free, h.noneYet, h.single, h.alive, h.woken, h.fresh, h.begun, h.held⟩
    · cases hstep
  | handler ret =>
    obtain ⟨m, hm, heq⟩ := Option.bind_eq_some_iff.mp hstep
    cases heq
    exact h.handler (handlerMoves_of_step hm)
  | worker thread r =>
    obtain ⟨pc, hpc, hrest⟩ := Option.bind_eq_some_iff.mp hstep
    obtain ⟨m, hm, heq⟩ := Option.bind_eq_some_iff.mp hrest
    cases heq
    exact h.worker hpc (workerMoves_of_step hm)

/-- A start that is not clean either finds the mutex locked, or leads to a second worker if the
calling thread goes on and the thread is created. -/
theorem not_disciplined_of_unclean {s t : Life F} {l : LifeLabel F} (h : LifeInv s)
    (hcond : ¬ StartsCleanly s l) (hstep : lifeStep s l = some t) :
    ¬ Throughout lifeStep Disciplined t [.main 0, .main 0, .main 0] := by
  cases l with
  | register hook func arg context =>
    simp only [StartsCleanly, not_forall, not_or, not_and] at hcond
    obtain ⟨hcontext, hrunning, hstarted, hunclean⟩ := hcond
    rw [Bool.not_eq_false] at hstarted
    simp only [lifeStep, hcontext, hrunning, and_self, if_true] at hstep
    split at hstep
    · rename_i hready
      obtain rfl := Option.some.inj hstep
      have hlocks := MainPc.locks_of_not_starting (MainPc.starting_of_outside hready.1)
      intro hall
      cases hwoken : s.woken with
      | false =>
        have hlocked := h.held hstarted hlocks hwoken
        exact absurd (hall.start.1 rfl) (by simp [hlocked])
      | true =>
        have hone : live s.threads = 1 := by
          have hsingle := h.single
          have hsome := hunclean hwoken
          omega
        have hfree := h.woken hwoken
        have hlocked : lockMutex s.process.toGlobals =
            some { s.process.toGlobals with mutexLocked := true } := by
          simp [lockMutex, hfree]
        obtain ⟨-, hall⟩ := (throughout_cons (by
          simp only [lifeStep, mainStep, hlocked, Option.map_some]; rfl)).mp hall
        obtain ⟨-, hall⟩ := (throughout_cons rfl).mp hall
        obtain ⟨-, hall⟩ := (throughout_cons rfl).mp hall
        have hsingle : live (s.threads ++ [.starting]) ≤ 1 := hall.start.2.1
        simp only [live, List.countP_append] at hone hsingle
        rw [hone] at hsingle
        exact absurd hsingle (by decide)
    · cases hstep
  | init => exact absurd trivial hcond
  | exit => exact absurd trivial hcond
  | main => exact absurd trivial hcond
  | deliver => exact absurd trivial hcond
  | handler => exact absurd trivial hcond
  | worker => exact absurd trivial hcond

/-- If nothing comes in between, a registration that starts the worker does step by step what
`register_callback` does at once. -/
theorem register_uninterrupted (s : Life F) (hook : CrCbHook) (func : Option F) (arg : ℕ)
    (hmain : s.main = .idle) (hrunning : s.process.threadRunning = false) :
    (run lifeStep s [.register hook func arg .thread, .main 0, .main 0, .main 0, .main 0]).map
        Life.process =
      (registerCallback hook func arg .thread 0 s.process).toOption.map Prod.snd := by
  cases hinfo : s.process.info with
  | none => simp [run, lifeStep, registerCallback, hinfo, Except.toOption]
  | some info =>
    cases hmutex : s.process.mutexLocked with
    | true =>
      simp [run, lifeStep, mainStep, registerCallback, initializeCbThread, lockMutex, hmain,
        MainPc.outside, hinfo, hrunning, hmutex, Except.toOption]
    | false =>
      simp [run, lifeStep, mainStep, registerCallback, initializeCbThread, lockMutex, hmain,
        MainPc.outside, hinfo, hrunning, hmutex, Life.append, Option.map_map, Function.comp_def]

/-- In a run all of whose starts of the worker are clean, the mutex is free whenever the calling
thread is about to take it, there is at most one worker, and there is one whenever
`thread_running` is set outside `initialize_cb_thread`. -/
theorem disciplined_throughout (labels : List (LifeLabel F))
    (h : Along lifeStep StartsCleanly .fresh labels) :
    Throughout lifeStep Disciplined .fresh labels := by
  have hfresh : LifeInv (.fresh : Life F) :=
    ⟨by simp [Life.fresh, MainPc.locks], fun _ => rfl, by simp [Life.fresh, live],
      by simp [Life.fresh, Process.fresh], fun _ => rfl, fun _ => ⟨rfl, rfl⟩,
      by simp [Life.fresh, MainPc.starting], by simp [Life.fresh]⟩
  exact (throughout_of_along (fun _ _ _ => lifeStep_inv) hfresh labels h).mono
    fun _ hs => ⟨hs.free, hs.single, hs.alive⟩

/-- A worker that is started, ends and is started again, the mutex having been released by a second
signal while the worker was busy with the first. -/
theorem second_start_disciplined :
    Throughout lifeStep (Disciplined (F := Unit)) .fresh
      [.init .success, .register .chkpt (some ()) 0 .thread, .main 0, .main 0, .main 0, .main 0,
        .worker 0 0, .worker 0 0, .deliver .chkpt, .handler fun _ => 0, .handler fun _ => 0,
        .handler fun _ => 0, .worker 0 0, .deliver .chkpt, .handler fun _ => 0,
        .handler fun _ => 0, .handler fun _ => 0, .worker 0 0, .worker 0 0, .worker 0 0,
        .worker 0 0, .worker 0 0, .worker 0 0, .exit, .worker 0 0, .init .success,
        .register .cnt (some ()) 0 .thread, .main 0, .main 0, .main 0, .main 0] :=
  disciplined_throughout _ (by decide)

/-- After `cr_callback_exit` the mutex is still locked, and the next start waits for it. -/
theorem start_after_exit_blocks :
    ¬ Throughout lifeStep (Disciplined (F := Unit)) .fresh
      [.init .success, .register .chkpt (some ()) 0 .thread, .main 0, .main 0, .main 0, .main 0,
        .exit, .init .success, .register .chkpt (some ()) 0 .thread] := by
  decide

end Kerrighed.Krgcb
