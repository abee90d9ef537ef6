import Mathlib.Data.Vector.Basic
import Mathlib.Data.Fintype.Basic

/-!
# The callback registry of a process

The globals of the callback library and the functions that set them up, fill the three
tables and tear them down. What the kernel keeps for the process is modelled next to the
globals: the installed signal handlers, the user data bit that requesters look at, and the
worker threads.

The outcome of every system call is an argument. A call ends normally with a return value,
or stops: `CR_CB_ABORT` exits the process, and `pthread_mutex_lock` on a locked mutex waits
for an unlock that only a signal can bring.
-/

namespace Kerrighed.Krgcb

variable {F : Type}

/-- The events a callback can be registered for: `CR_CB_CHECKPOINT`, `CR_CB_RESTART` and
`CR_CB_CONTINUE`. -/
inductive CrCbHook where
  | chkpt
  | rst
  | cnt
  deriving DecidableEq, Repr

instance : Fintype CrCbHook := ⟨{.chkpt, .rst, .cnt}, fun h => by cases h <;> decide⟩

/-- Where a callback runs: in the signal handler or in the worker thread. -/
inductive CrCbContext where
  | signal
  | thread
  deriving DecidableEq, Repr

instance : Fintype CrCbContext := ⟨{.signal, .thread}, fun c => by cases c <;> decide⟩

/-- The verdicts sent to the requester: `CR_CB_CHKPT_APP` and `CR_CB_ERR`. -/
inductive CrCbStatus where
  | chkptApp
  | err
  deriving DecidableEq, Repr

/-- The capacity of each table. -/
def crCbMaxCallbacks : ℕ := 40

/-- A function pointer with its argument and its context; `none` is the null pointer. -/
structure CrCbCallback (F : Type) where
  func : Option F
  arg : ℕ
  threadCb : Bool
  deriving DecidableEq, Repr

/-- An entry as `memset` leaves it. -/
def CrCbCallback.zero : CrCbCallback F := ⟨none, 0, false⟩

/-- The number of callbacks registered for each hook. -/
structure CrCbCount where
  chkpt : ℕ
  rst : ℕ
  cnt : ℕ
  deriving DecidableEq, Repr

/-- The count of a hook. -/
def cbCountRead (hook : CrCbHook) (cb : CrCbCount) : ℕ :=
  match hook with
  | .chkpt => cb.chkpt
  | .rst => cb.rst
  | .cnt => cb.cnt

/-- Set the count of a hook. -/
def cbCountWrite (hook : CrCbHook) (value : ℕ) (cb : CrCbCount) : CrCbCount :=
  match hook with
  | .chkpt => { cb with chkpt := value }
  | .rst => { cb with rst := value }
  | .cnt => { cb with cnt := value }

/-- The allocated registry: the counts and one fixed-size table for each hook. -/
structure CrCbInfo (F : Type) where
  crCbCount : CrCbCount
  crCbChkpt : Vector (CrCbCallback F) crCbMaxCallbacks
  crCbRst : Vector (CrCbCallback F) crCbMaxCallbacks
  crCbCnt : Vector (CrCbCallback F) crCbMaxCallbacks
  deriving DecidableEq

/-- The registry after `memset`. -/
def CrCbInfo.zero : CrCbInfo F :=
  ⟨⟨0, 0, 0⟩, .replicate _ .zero, .replicate _ .zero, .replicate _ .zero⟩

/-- The table that the switch on the hook selects. -/
def CrCbInfo.table (info : CrCbInfo F) : CrCbHook → Vector (CrCbCallback F) crCbMaxCallbacks
  | .chkpt => info.crCbChkpt
  | .rst => info.crCbRst
  | .cnt => info.crCbCnt

/-- Write one entry of the table of a hook. -/
def CrCbInfo.setEntry (info : CrCbInfo F) (hook : CrCbHook) (idx : ℕ) (cb : CrCbCallback F) :
    CrCbInfo F :=
  match hook with
  | .chkpt => { info with crCbChkpt := info.crCbChkpt.setIfInBounds idx cb }
  | .rst => { info with crCbRst := info.crCbRst.setIfInBounds idx cb }
  | .cnt => { info with crCbCnt := info.crCbCnt.setIfInBounds idx cb }

/-- Write the next entry of a hook and increment its count. -/
def CrCbInfo.append (info : CrCbInfo F) (hook : CrCbHook) (cb : CrCbCallback F) : CrCbInfo F :=
  let idx := cbCountRead hook info.crCbCount
  { info.setEntry hook idx cb with crCbCount := cbCountWrite hook (idx + 1) info.crCbCount }

/-- The entries below the count of a hook, in registration order. -/
def CrCbInfo.registered (info : CrCbInfo F) (hook : CrCbHook) : List (CrCbCallback F) :=
  (info.table hook).toList.take (cbCountRead hook info.crCbCount)

/-- The globals of the library. Before the first signal `current_hook` is zero, which is no
hook. -/
structure Globals (F : Type) where
  info : Option (CrCbInfo F)
  threadRunning : Bool
  currentHook : Option CrCbHook
  mutexLocked : Bool
  deriving DecidableEq

/-- The globals of a process together with what the kernel holds for it: the hooks whose
signal has a handler, whether `CR_CB_ACTIV_CB` is declared, and how many worker threads it
has. -/
structure Process (F : Type) extends Globals F where
  handlers : CrCbHook → Bool
  activCb : Bool
  workers : ℕ

/-- The process before its first call of the library. -/
def Process.fresh : Process F := ⟨⟨none, false, none, false⟩, fun _ => false, false, 0⟩

/-- How a call can fail to return. -/
inductive Halt where
  | aborted
  | blocked
  deriving DecidableEq, Repr

/-- A return value with the process after the call, or the reason why the call does not return. -/
abbrev Call (F : Type) := Except Halt (ℤ × Process F)

/-- Drop the registry and forget the worker thread. -/
def freeInfoMemory (g : Globals F) : Globals F := { g with info := none, threadRunning := false }

/-- Take the mutex, unless it is locked. -/
def lockMutex (g : Globals F) : Option (Globals F) :=
  if g.mutexLocked then none else some { g with mutexLocked := true }

/-- Start the worker thread, given the result of `pthread_create`. The mutex stays locked in
either case. -/
def initializeCbThread (create : ℤ) (p : Process F) : Call F :=
  match lockMutex p.toGlobals with
  | none => .error .blocked
  | some g =>
    let p := { p with toGlobals := { g with threadRunning := true } }
    if create ≠ 0 then .ok (create, { p with toGlobals := freeInfoMemory p.toGlobals })
    else .ok (create, { p with workers := p.workers + 1 })

/-- The outcomes of the system calls that `cr_callback_init` makes. -/
structure InitOutcome where
  malloc : Bool
  sigaction : CrCbHook → ℤ
  setUserdata : ℤ

/-- Every step succeeds. -/
def InitOutcome.success : InitOutcome := ⟨true, fun _ => 0, 0⟩

/-- Install the handler of one signal. -/
def installHandler (hook : CrCbHook) (r : ℤ) (p : Process F) : ℤ × Process F :=
  (r, if r = 0 then { p with handlers := fun h => h = hook || p.handlers h } else p)

/-- Install the three handlers, stopping at the first failure. -/
def initializeSignalHandlers (sigaction : CrCbHook → ℤ) (p : Process F) : ℤ × Process F :=
  let (r, p) := installHandler .chkpt (sigaction .chkpt) p
  if r ≠ 0 then (r, p)
  else
    let (r, p) := installHandler .rst (sigaction .rst) p
    if r ≠ 0 then (r, p)
    else installHandler .cnt (sigaction .cnt) p

/-- Allocate a zeroed registry in place of the one there was. -/
def initializeCbInfo (malloc : Bool) (p : Process F) : ℤ × Process F :=
  if malloc then (0, { p with info := some .zero }) else (-1, { p with info := none })

/-- Declare to the kernel that the application has callbacks. -/
def declareCb (setUserdata : ℤ) (p : Process F) : ℤ × Process F :=
  (setUserdata, if setUserdata = 0 then { p with activCb := true } else p)

/-- Initialize the library; a failure of any step drops the registry again. -/
def crCallbackInit (o : InitOutcome) (p : Process F) : ℤ × Process F :=
  let failed (r : ℤ) (p : Process F) := (r, { p with toGlobals := freeInfoMemory p.toGlobals })
  let (r, p) := initializeCbInfo o.malloc p
  if r ≠ 0 then failed r p
  else
    let (r, p) := initializeSignalHandlers o.sigaction p
    if r ≠ 0 then failed r p
    else
      let (r, p) := declareCb o.setUserdata p
      if r ≠ 0 then failed r p else (r, p)

/-- Leave the library. The handlers, the declared bit, the worker and the mutex stay as they
are. -/
def crCallbackExit (p : Process F) : Except Halt (Process F) :=
  match p.info with
  | some _ => .ok { p with toGlobals := freeInfoMemory p.toGlobals }
  | none => .error .aborted

/-- Put a callback behind those of its hook, unless the table is full. -/
def appendCallback (hook : CrCbHook) (func : Option F) (arg : ℕ) (context : CrCbContext)
    (p : Process F) : Call F :=
  match p.info with
  | none => .error .aborted
  | some info =>
    if cbCountRead hook info.crCbCount < crCbMaxCallbacks then
      .ok (0, { p with info := some (info.append hook ⟨func, arg, context ≠ .signal⟩) })
    else .ok (-1, p)

/-- Register a callback, starting the worker thread first if the callback needs it. -/
def registerCallback (hook : CrCbHook) (func : Option F) (arg : ℕ) (context : CrCbContext)
    (create : ℤ) (p : Process F) : Call F :=
  match p.info with
  | none => .error .aborted
  | some _ =>
    if context = .thread ∧ p.threadRunning = false then
      match initializeCbThread create p with
      | .error halt => .error halt
      | .ok (r, p) => if r ≠ 0 then .ok (r, p) else appendCallback hook func arg context p
    else appendCallback hook func arg context p

/-- Register a checkpoint callback out of the signal handler. -/
def crRegisterChkptCallback (func : Option F) (arg : ℕ) (create : ℤ) (p : Process F) : Call F :=
  registerCallback .chkpt func arg .signal create p

/-- Register a restart callback out of the signal handler. -/
def crRegisterRestartCallback (func : Option F) (arg : ℕ) (create : ℤ) (p : Process F) : Call F :=
  registerCallback .rst func arg .signal create p

/-- Register a continue callback out of the signal handler. -/
def crRegisterContinueCallback (func : Option F) (arg : ℕ) (create : ℤ) (p : Process F) : Call F :=
  registerCallback .cnt func arg .signal create p

/-- Register a checkpoint callback out of the worker thread. -/
def crRegisterChkptThreadCallback (func : Option F) (arg : ℕ) (create : ℤ) (p : Process F) :
    Call F :=
  registerCallback .chkpt func arg .thread create p

/-- Register a restart callback out of the worker thread. -/
def crRegisterRestartThreadCallback (func : Option F) (arg : ℕ) (create : ℤ) (p : Process F) :
    Call F :=
  registerCallback .rst func arg .thread create p

/-- Register a continue callback out of the worker thread. -/
def crRegisterContinueThreadCallback (func : Option F) (arg : ℕ) (create : ℤ) (p : Process F) :
    Call F :=
  registerCallback .cnt func arg .thread create p

/-- A fork copies the globals and what the kernel keeps for the process, but only the calling
thread. -/
def Process.fork (p : Process F) : Process F := { p with workers := 0 }

/-- A freshly zeroed registry has no callbacks. -/
@[simp] theorem CrCbInfo.registered_zero (hook : CrCbHook) :
    (CrCbInfo.zero : CrCbInfo F).registered hook = [] := by
  cases hook <;> rfl

/-- Appending puts the entry behind the callbacks of its hook and leaves those of the others. -/
theorem CrCbInfo.registered_append (info : CrCbInfo F) {hook : CrCbHook} (cb : CrCbCallback F)
    (hroom : cbCountRead hook info.crCbCount < crCbMaxCallbacks) (h : CrCbHook) :
    (info.append hook cb).registered h =
      if h = hook then info.registered h ++ [cb] else info.registered h := by
  have hset (v : Vector (CrCbCallback F) crCbMaxCallbacks) (n : ℕ) (hn : n < crCbMaxCallbacks) :
      (v.toList.set n cb).take (n + 1) = v.toList.take n ++ [cb] := by
    rw [List.take_succ_eq_append_getElem (by simpa using hn), List.getElem_set_self,
      List.take_set_of_le (Nat.le_refl n)]
  cases hook <;> cases h <;>
    simp [CrCbInfo.append, CrCbInfo.registered, CrCbInfo.table, CrCbInfo.setEntry, cbCountRead,
      cbCountWrite] <;>
    exact hset _ _ hroom

/-- A registration that gets as far as the table either appends its callback or finds the table
full and changes nothing. -/
theorem appendCallback_cases {p q : Process F} {info : CrCbInfo F} (hinfo : p.info = some info)
    {hook : CrCbHook} {func : Option F} {arg : ℕ} {context : CrCbContext} {r : ℤ}
    (h : appendCallback hook func arg context p = .ok (r, q)) :
    (r = 0 ∧ ∃ info', q = { p with info := some info' } ∧ ∀ h, info'.registered h =
        if h = hook then info.registered h ++ [⟨func, arg, context ≠ .signal⟩]
        else info.registered h) ∨
      (r = -1 ∧ q = p) := by
  simp only [appendCallback, hinfo] at h
  split at h
  · rename_i hroom
    obtain ⟨rfl, rfl⟩ := Prod.mk.inj (Except.ok.inj h)
    exact Or.inl ⟨rfl, _, rfl, info.registered_append _ hroom⟩
  · obtain ⟨rfl, rfl⟩ := Prod.mk.inj (Except.ok.inj h)
    exact Or.inr ⟨rfl, rfl⟩

/-- Every step of the initialization succeeds. -/
def InitOutcome.Succeeds (o : InitOutcome) : Prop :=
  o.malloc = true ∧ (∀ hook, o.sigaction hook = 0) ∧ o.setUserdata = 0

instance (o : InitOutcome) : Decidable o.Succeeds :=
  inferInstanceAs (Decidable (o.malloc = true ∧ (∀ hook, o.sigaction hook = 0) ∧ o.setUserdata = 0))

/-- The initialization gets as far as installing the handler of the hook. -/
def InitOutcome.installs (o : InitOutcome) : CrCbHook → Bool
  | .chkpt => o.malloc && o.sigaction .chkpt == 0
  | .rst => o.malloc && o.sigaction .chkpt == 0 && o.sigaction .rst == 0
  | .cnt =>
    o.malloc && o.sigaction .chkpt == 0 && o.sigaction .rst == 0 && o.sigaction .cnt == 0

/-- The handler of the checkpoint signal is installed first. -/
theorem InitOutcome.installs_chkpt {o : InitOutcome} {hook : CrCbHook}
    (h : o.installs hook = true) : o.installs .chkpt = true := by
  cases hook <;> simp_all [InitOutcome.installs]

/-- A successful initialization starts with empty tables and turns everything on. -/
theorem crCallbackInit_of_succeeds {o : InitOutcome} (h : o.Succeeds) (p : Process F) :
    crCallbackInit o p =
      (0, { p with info := some .zero, handlers := fun _ => true, activCb := true }) := by
  obtain ⟨hmalloc, hsigaction, hdeclare⟩ := h
  have hall : (fun hook => decide (hook = .cnt) || (decide (hook = .rst) ||
      (decide (hook = .chkpt) || p.handlers hook))) = fun _ : CrCbHook => true := by
    funext hook
    cases hook <;> simp
  simp [crCallbackInit, initializeCbInfo, initializeSignalHandlers, installHandler, declareCb,
    hmalloc, hsigaction, hdeclare, hall]

/-- A failed initialization drops the registry and leaves the handlers it has installed. -/
theorem crCallbackInit_of_not_succeeds {o : InitOutcome} (h : ¬ o.Succeeds) (p : Process F) :
    ∃ r, r ≠ 0 ∧ crCallbackInit o p =
      (r, { p with
        toGlobals := freeInfoMemory p.toGlobals
        handlers := fun hook => o.installs hook || p.handlers hook }) := by
  have hhandlers (f : CrCbHook → Bool) (hf : ∀ hook, f hook = (o.installs hook || p.handlers hook)) :
      f = fun hook => o.installs hook || p.handlers hook := funext hf
  cases hmalloc : o.malloc with
  | false =>
    refine ⟨-1, by simp, ?_⟩
    rw [← hhandlers p.handlers fun hook => by cases hook <;> simp [InitOutcome.installs, hmalloc]]
    simp [crCallbackInit, initializeCbInfo, hmalloc, freeInfoMemory]
  | true =>
    by_cases hchkpt : o.sigaction .chkpt = 0
    · by_cases hrst : o.sigaction .rst = 0
      · by_cases hcnt : o.sigaction .cnt = 0
        · have hdeclare : o.setUserdata ≠ 0 := fun hdeclare =>
            h ⟨hmalloc, fun hook => by cases hook <;> assumption, hdeclare⟩
          refine ⟨o.setUserdata, hdeclare, ?_⟩
          rw [← hhandlers (fun h => h = .cnt || (h = .rst || (h = .chkpt || p.handlers h)))
            fun hook => by cases hook <;> simp [InitOutcome.installs, hmalloc, hchkpt, hrst, hcnt]]
          simp [crCallbackInit, initializeCbInfo, initializeSignalHandlers, installHandler,
            declareCb, hmalloc, hchkpt, hrst, hcnt, hdeclare, freeInfoMemory]
        · refine ⟨o.sigaction .cnt, hcnt, ?_⟩
          rw [← hhandlers (fun h => h = .rst || (h = .chkpt || p.handlers h))
            fun hook => by cases hook <;> simp [InitOutcome.installs, hmalloc, hchkpt, hrst, hcnt]]
          simp [crCallbackInit, initializeCbInfo, initializeSignalHandlers, installHandler,
            hmalloc, hchkpt, hrst, hcnt, freeInfoMemory]
      · refine ⟨o.sigaction .rst, hrst, ?_⟩
        rw [← hhandlers (fun h => h = .chkpt || p.handlers h)
          fun hook => by cases hook <;> simp [InitOutcome.installs, hmalloc, hchkpt, hrst]]
        simp [crCallbackInit, initializeCbInfo, initializeSignalHandlers, installHandler,
          hmalloc, hchkpt, hrst, freeInfoMemory]
    · refine ⟨o.sigaction .chkpt, hchkpt, ?_⟩
      rw [← hhandlers p.handlers
        fun hook => by cases hook <;> simp [InitOutcome.installs, hmalloc, hchkpt]]
      simp [crCallbackInit, initializeCbInfo, initializeSignalHandlers, installHandler,
        hmalloc, hchkpt, freeInfoMemory]

/-- A registration in signal context only needs room in the table. -/
theorem registerCallback_signal {hook : CrCbHook} {p : Process F} {info : CrCbInfo F}
    (hinfo : p.info = some info) (hroom : cbCountRead hook info.crCbCount < crCbMaxCallbacks)
    (func : Option F) (arg : ℕ) (create : ℤ) :
    registerCallback hook func arg .signal create p =
      .ok (0, { p with info := some (info.append hook ⟨func, arg, false⟩) }) := by
  simp [registerCallback, appendCallback, hinfo, hroom]

/-- The worker is there for callbacks of the context: nothing was needed, or the thread has just
been started. -/
def WorkerStarted (context : CrCbContext) (create : ℤ) (p q : Process F) : Prop :=
  (q = p ∧ (context = .thread → p.threadRunning = true)) ∨
    (context = .thread ∧ p.threadRunning = false ∧ p.mutexLocked = false ∧ create = 0 ∧
      q = { p with threadRunning := true, mutexLocked := true, workers := p.workers + 1 })

/-- Starting the worker thread leaves the registry and the signals alone. -/
theorem WorkerStarted.frame {context : CrCbContext} {create : ℤ} {p q : Process F}
    (h : WorkerStarted context create p q) :
    q.info = p.info ∧ q.handlers = p.handlers ∧ q.activCb = p.activCb := by
  rcases h with ⟨rfl, -⟩ | ⟨-, -, -, -, rfl⟩ <;> exact ⟨rfl, rfl, rfl⟩

/-- If the worker had to be started for a thread-context callback, that was successful. -/
theorem WorkerStarted.create_eq_zero {create : ℤ} {p q : Process F}
    (h : WorkerStarted .thread create p q) (hrunning : p.threadRunning = false) : create = 0 := by
  rcases h with ⟨-, hneeded⟩ | ⟨-, -, -, hcreate, -⟩
  · simp [hneeded rfl] at hrunning
  · exact hcreate

/-- A registration that returns has either failed to start the worker and dropped the registry, or
appended its callback, or found the table full. -/
theorem registerCallback_cases {hook : CrCbHook} {func : Option F} {arg : ℕ} {context : CrCbContext}
    {create r : ℤ} {p q : Process F}
    (h : registerCallback hook func arg context create p = .ok (r, q)) :
    ∃ info, p.info = some info ∧
      ((context = .thread ∧ p.threadRunning = false ∧ create ≠ 0 ∧ r = create ∧
          q = { p with info := none, mutexLocked := true }) ∨
        ∃ p', WorkerStarted context create p p' ∧
          ((r = 0 ∧ ∃ info', q = { p' with info := some info' } ∧ ∀ h, info'.registered h =
              if h = hook then info.registered h ++ [⟨func, arg, context ≠ .signal⟩]
              else info.registered h) ∨
            (r = -1 ∧ q = p'))) := by
  cases hinfo : p.info with
  | none => simp [registerCallback, hinfo] at h
  | some info =>
    refine ⟨info, rfl, ?_⟩
    simp only [registerCallback, hinfo] at h
    split at h
    · rename_i hneeded
      obtain ⟨hcontext, hrunning⟩ := hneeded
      cases hmutex : p.mutexLocked with
      | true => simp [initializeCbThread, lockMutex, hmutex] at h
      | false =>
        by_cases hcreate : create = 0
        · simp only [initializeCbThread, lockMutex, hmutex, hcreate, ne_eq, not_true_eq_false,
            Bool.false_eq_true, if_false] at h
          have hcases := appendCallback_cases
            (p := { p with threadRunning := true, mutexLocked := true, workers := p.workers + 1 })
            hinfo h
          exact Or.inr ⟨_, Or.inr ⟨hcontext, hrunning, hmutex, hcreate, rfl⟩, hcases⟩
        · simp only [initializeCbThread, lockMutex, hmutex, hcreate, ne_eq, not_false_eq_true,
            Bool.false_eq_true, if_false, if_true] at h
          obtain ⟨rfl, rfl⟩ := Prod.mk.inj (Except.ok.inj h)
          refine Or.inl ⟨hcontext, hrunning, hcreate, rfl, ?_⟩
          simp [freeInfoMemory, ← hrunning]
    · rename_i hpresent
      refine Or.inr ⟨p, Or.inl ⟨rfl, fun hcontext => ?_⟩, appendCallback_cases hinfo h⟩
      simpa [hcontext] using hpresent

end Kerrighed.Krgcb
