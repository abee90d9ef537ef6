import Kerrighed.Krgcb.Threads

/-!
# Registrations that fail

A registration for the worker thread starts the thread before it looks at the table. A failed
start gives the whole registry up, and a start followed by a full table leaves the thread behind.

A registration leaves the library as it was, or appends exactly its callback, in every state of a
run exactly when it needs no start or the start and the room in the table are there.
-/

namespace Kerrighed.Krgcb

open Kerrighed.Common

variable {F : Type}

/-- A call of the library, a fork after which the child goes on, a signal, or a turn of the worker,
each on its own. -/
inductive CallbackOp (F : Type) where
  | init (o : InitOutcome)
  | exit
  | register (hook : CrCbHook) (func : Option F) (arg : ℕ) (context : CrCbContext) (create : ℤ)
  | fork
  | signal (hook : CrCbHook) (ret : ℕ → ℤ)
  | worker (ret : ℕ → ℤ)

/-- The process after the call, if that returns. -/
def callbackStep (p : Process F) : CallbackOp F → Option (Process F)
  | .init o => some (crCallbackInit o p).2
  | .exit => (crCallbackExit p).toOption
  | .register hook func arg context create =>
    (registerCallback hook func arg context create p).toOption.map Prod.snd
  | .fork => some p.fork
  | .signal hook ret =>
    if p.handlers hook then
      (handleSignal hook.signum ret p.toGlobals).map fun h => { p with toGlobals := h.globals }
    else none
  | .worker ret =>
    if p.workers ≠ 0 then
      (workerPass ret p.toGlobals).map fun h => { p with toGlobals := h.globals }
    else none

/-- No count exceeds the capacity of its table. -/
def WithinCapacity (p : Process F) : Prop :=
  ∀ info, p.info = some info → ∀ hook, cbCountRead hook info.crCbCount ≤ crCbMaxCallbacks

/-- One callback has been added behind those of its hook; every other entry of every table and the
other counts are the same. -/
structure Appended (info info' : CrCbInfo F) (hook : CrCbHook) (cb : CrCbCallback F) : Prop where
  count : ∀ h, cbCountRead h info'.crCbCount =
    cbCountRead h info.crCbCount + if h = hook then 1 else 0
  added : info'.entry hook (cbCountRead hook info.crCbCount) = cb
  others : ∀ h i, ¬ (h = hook ∧ i = cbCountRead hook info.crCbCount) →
    info'.entry h i = info.entry h i

/-- If the registration returns nonzero, the registry and `thread_running` are as before, and if it
returns zero, it has appended its callback. -/
def RegistersExactly (p : Process F) (hook : CrCbHook) (func : Option F) (arg : ℕ)
    (context : CrCbContext) (create : ℤ) : Prop :=
  ∀ r q, registerCallback hook func arg context create p = .ok (r, q) →
    (r ≠ 0 → q.info = p.info ∧ q.threadRunning = p.threadRunning) ∧
    (r = 0 → ∃ info info', p.info = some info ∧ q.info = some info' ∧
      Appended info info' hook ⟨func, arg, context ≠ .signal⟩)

/-- The registration does not return, for want of a registry or of the mutex, or it does not have to
start the worker, or it starts it and finds room in the table. -/
def RegistersSafely (p : Process F) (hook : CrCbHook) (context : CrCbContext) (create : ℤ) : Prop :=
  ∀ info, p.info = some info → context = .thread → p.threadRunning = false →
    p.mutexLocked = false → create = 0 ∧ cbCountRead hook info.crCbCount < crCbMaxCallbacks

/-- The count of a hook after it has been set. -/
@[simp] theorem cbCountRead_write (h hook : CrCbHook) (value : ℕ) (cb : CrCbCount) :
    cbCountRead h (cbCountWrite hook value cb) = if h = hook then value else cbCountRead h cb := by
  cases h <;> cases hook <;> rfl

/-- Writing an entry of a table leaves the other tables. -/
theorem CrCbInfo.table_setEntry (info : CrCbInfo F) (hook : CrCbHook) (idx : ℕ)
    (cb : CrCbCallback F) (h : CrCbHook) :
    (info.setEntry hook idx cb).table h =
      if h = hook then (info.table h).setIfInBounds idx cb else info.table h := by
  cases h <;> cases hook <;> rfl

/-- Counting a callback leaves the tables. -/
theorem CrCbInfo.table_append (info : CrCbInfo F) (hook : CrCbHook) (cb : CrCbCallback F)
    (h : CrCbHook) :
    (info.append hook cb).table h =
      (info.setEntry hook (cbCountRead hook info.crCbCount) cb).table h := by
  cases h <;> rfl

/-- Appending where there is room adds one callback and nothing else. -/
theorem CrCbInfo.appended (info : CrCbInfo F) {hook : CrCbHook} (cb : CrCbCallback F)
    (hroom : cbCountRead hook info.crCbCount < crCbMaxCallbacks) :
    Appended info (info.append hook cb) hook cb := by
  refine ⟨fun h => ?_, ?_, fun h i hother => ?_⟩
  · rw [CrCbInfo.append, cbCountRead_write]
    split
    · rename_i heq
      rw [heq]
    · rfl
  · rw [CrCbInfo.entry, CrCbInfo.table_append, CrCbInfo.table_setEntry, if_pos rfl,
      Vector.getElem?_setIfInBounds_self_of_lt hroom]
    rfl
  · rw [CrCbInfo.entry, CrCbInfo.table_append, CrCbInfo.table_setEntry, CrCbInfo.entry]
    split
    · rename_i heq
      rw [Vector.getElem?_setIfInBounds_ne fun hi => hother ⟨heq, hi.symm⟩]
    · rfl

/-- The process after a successful start of its worker. -/
def Process.startWorker (p : Process F) : Process F :=
  { p with threadRunning := true, mutexLocked := true, workers := p.workers + 1 }

/-- The registration in a process with its registry: the start of the worker, if it is needed, comes
before the table. -/
theorem registerCallback_eq {p : Process F} {info : CrCbInfo F} (hinfo : p.info = some info)
    (hook : CrCbHook) (func : Option F) (arg : ℕ) (context : CrCbContext) (create : ℤ) :
    registerCallback hook func arg context create p =
      if context = .thread ∧ p.threadRunning = false then
        if p.mutexLocked then .error .blocked
        else if create ≠ 0 then
          .ok (create, { p with info := none, threadRunning := false, mutexLocked := true })
        else appendCallback hook func arg context p.startWorker
      else appendCallback hook func arg context p := by
  rw [registerCallback]
  simp only [hinfo]
  by_cases hneeded : context = .thread ∧ p.threadRunning = false
  · rw [if_pos hneeded, if_pos hneeded, initializeCbThread, lockMutex]
    cases p.mutexLocked with
    | true => rfl
    | false =>
      by_cases hcreate : create = 0
      · simp [hcreate, Process.startWorker]
      · simp [hcreate, freeInfoMemory]
  · rw [if_neg hneeded, if_neg hneeded]

/-- What happens at the table. -/
theorem appendCallback_eq {p : Process F} {info : CrCbInfo F} (hinfo : p.info = some info)
    (hook : CrCbHook) (func : Option F) (arg : ℕ) (context : CrCbContext) :
    appendCallback hook func arg context p =
      if cbCountRead hook info.crCbCount < crCbMaxCallbacks then
        .ok (0, { p with info := some (info.append hook ⟨func, arg, context ≠ .signal⟩) })
      else .ok (-1, p) := by
  rw [appendCallback]
  simp only [hinfo]

/-- A registration that does not start the worker keeps its promise. -/
theorem registersExactly_of_present {p : Process F} {info : CrCbInfo F} (hinfo : p.info = some info)
    {context : CrCbContext} (hpresent : ¬ (context = .thread ∧ p.threadRunning = false))
    (hook : CrCbHook) (func : Option F) (arg : ℕ) (create : ℤ) :
    RegistersExactly p hook func arg context create := by
  intro r q h
  rw [registerCallback_eq hinfo, if_neg hpresent, appendCallback_eq hinfo] at h
  split at h
  · rename_i hroom
    obtain ⟨rfl, rfl⟩ := Prod.mk.inj (Except.ok.inj h)
    exact ⟨fun hne => absurd rfl hne, fun _ => ⟨info, _, hinfo, rfl, info.appended _ hroom⟩⟩
  · obtain ⟨rfl, rfl⟩ := Prod.mk.inj (Except.ok.inj h)
    exact ⟨fun _ => ⟨rfl, rfl⟩, by simp⟩

/-- A registration that starts the worker keeps its promise exactly when the start succeeds and
there is room in the table. -/
theorem registersExactly_start_iff {p : Process F} {info : CrCbInfo F} (hinfo : p.info = some info)
    (hrunning : p.threadRunning = false) (hfree : p.mutexLocked = false) (hook : CrCbHook)
    (func : Option F) (arg : ℕ) (create : ℤ) :
    RegistersExactly p hook func arg .thread create ↔
      create = 0 ∧ cbCountRead hook info.crCbCount < crCbMaxCallbacks := by
  have hstart : p.startWorker.info = some info := hinfo
  rw [RegistersExactly, registerCallback_eq hinfo, if_pos ⟨rfl, hrunning⟩, if_neg (by simp [hfree])]
  by_cases hcreate : create = 0
  · rw [if_neg (not_not.mpr hcreate), appendCallback_eq hstart]
    by_cases hroom : cbCountRead hook info.crCbCount < crCbMaxCallbacks
    · rw [if_pos hroom]
      refine iff_of_true (fun r q h => ?_) ⟨hcreate, hroom⟩
      obtain ⟨rfl, rfl⟩ := Prod.mk.inj (Except.ok.inj h)
      exact ⟨fun hne => absurd rfl hne, fun _ => ⟨info, _, hinfo, rfl, info.appended _ hroom⟩⟩
    · rw [if_neg hroom]
      refine iff_of_false (fun hexact => ?_) fun h => hroom h.2
      have hkept := (hexact _ _ rfl).1 (by decide)
      have hset : p.startWorker.threadRunning = true := rfl
      exact absurd (hset.symm.trans hkept.2) (by simp [hrunning])
  · rw [if_pos hcreate]
    refine iff_of_false (fun hexact => ?_) fun h => hcreate h.1
    have hkept := (hexact _ _ rfl).1 hcreate
    exact absurd (hinfo.symm.trans hkept.1.symm) (by simp)

/-- A registration keeps its promise exactly when it is safe. -/
theorem registersExactly_iff (p : Process F) (hook : CrCbHook) (func : Option F) (arg : ℕ)
    (context : CrCbContext) (create : ℤ) :
    RegistersExactly p hook func arg context create ↔ RegistersSafely p hook context create := by
  cases hinfo : p.info with
  | none => simp [RegistersExactly, RegistersSafely, registerCallback, hinfo]
  | some info =>
    by_cases hneeded : context = .thread ∧ p.threadRunning = false
    · obtain ⟨rfl, hrunning⟩ := hneeded
      cases hmutex : p.mutexLocked with
      | true =>
        simp [RegistersExactly, RegistersSafely, registerCallback_eq hinfo, hrunning, hmutex]
      | false =>
        rw [registersExactly_start_iff hinfo hrunning hmutex]
        simp [RegistersSafely, hinfo, hrunning, hmutex]
    · refine iff_of_true (registersExactly_of_present hinfo hneeded hook func arg create) ?_
      exact fun _ _ hcontext hrunning => absurd ⟨hcontext, hrunning⟩ hneeded

/-- Only the registry decides whether its counts are in range. -/
theorem WithinCapacity.of_info {p q : Process F} (h : WithinCapacity p)
    (hinfo : ∀ info, q.info = some info → p.info = some info) : WithinCapacity q :=
  fun info hq => h info (hinfo info hq)

/-- A registration keeps the counts in range. -/
theorem registerCallback_withinCapacity {p q : Process F} (h : WithinCapacity p) {hook : CrCbHook}
    {func : Option F} {arg : ℕ} {context : CrCbContext} {create r : ℤ}
    (hcall : registerCallback hook func arg context create p = .ok (r, q)) : WithinCapacity q := by
  cases hinfo : p.info with
  | none => simp [registerCallback, hinfo] at hcall
  | some info =>
    have happend {p' : Process F} (hinfo' : p'.info = some info)
        (hcall : appendCallback hook func arg context p' = .ok (r, q)) : WithinCapacity q := by
      rw [appendCallback_eq hinfo'] at hcall
      split at hcall
      · rename_i hroom
        obtain ⟨-, rfl⟩ := Prod.mk.inj (Except.ok.inj hcall)
        intro info' heq hook'
        obtain rfl := Option.some.inj heq
        rw [(info.appended _ hroom).count]
        split
        · rename_i hsame
          rw [hsame]
          omega
        · exact h info hinfo hook'
      · obtain ⟨-, rfl⟩ := Prod.mk.inj (Except.ok.inj hcall)
        exact h.of_info fun info' heq => hinfo.trans (hinfo'.symm.trans heq)
    rw [registerCallback_eq hinfo] at hcall
    split at hcall
    · split at hcall
      · exact absurd hcall (by simp)
      · split at hcall
        · obtain ⟨-, rfl⟩ := Prod.mk.inj (Except.ok.inj hcall)
          exact h.of_info (by simp)
        · exact happend (show p.startWorker.info = some info from hinfo) hcall
    · exact happend hinfo hcall

/-- Waking the worker leaves the registry. -/
@[simp] theorem info_wakeWorker (g : Globals F) : (wakeWorker g).info = g.info :=
  (wakeWorker_frame g).1

/-- A signal leaves the registry. -/
theorem handleSignal_info {hook : CrCbHook} {ret : ℕ → ℤ} {g : Globals F} {h : Handled F}
    (hhandle : handleSignal hook.signum ret g = some h) : h.globals.info = g.info := by
  cases hinfo : g.info with
  | none => simp [handleSignal, hinfo] at hhandle
  | some info =>
    rw [handleSignal_signum hinfo] at hhandle
    obtain rfl := Option.some.inj hhandle
    simpa using hinfo

/-- A turn of the worker leaves the registry. -/
theorem workerPass_info {ret : ℕ → ℤ} {g : Globals F} {h : Handled F}
    (hpass : workerPass ret g = some h) : h.globals.info = g.info := by
  obtain ⟨g', hlock, hrest⟩ := Option.bind_eq_some_iff.mp hpass
  obtain ⟨result, -, heq⟩ := Option.bind_eq_some_iff.mp hrest
  obtain rfl := Option.some.inj heq
  rw [lockMutex] at hlock
  split at hlock
  · exact absurd hlock (by simp)
  · obtain rfl := Option.some.inj hlock
    rfl

/-- Every step keeps the counts in range. -/
theorem callbackStep_withinCapacity {p q : Process F} {op : CallbackOp F} (h : WithinCapacity p)
    (hstep : callbackStep p op = some q) : WithinCapacity q := by
  cases op with
  | init o =>
    obtain rfl := Option.some.inj hstep
    by_cases hsucceed : o.Succeeds
    · rw [crCallbackInit_of_succeeds hsucceed]
      intro info heq hook
      obtain rfl := Option.some.inj heq
      cases hook <;> exact Nat.zero_le _
    · obtain ⟨r, -, heq⟩ := crCallbackInit_of_not_succeeds hsucceed p
      rw [heq]
      exact h.of_info (by simp [freeInfoMemory])
  | exit =>
    cases hinfo : p.info with
    | none => simp [callbackStep, crCallbackExit, hinfo, Except.toOption] at hstep
    | some info =>
      simp only [callbackStep, crCallbackExit, hinfo, Except.toOption, Option.some.injEq] at hstep
      subst hstep
      exact h.of_info (by simp [freeInfoMemory])
  | register hook func arg context create =>
    cases hcall : registerCallback hook func arg context create p with
    | error halt => simp [callbackStep, hcall, Except.toOption] at hstep
    | ok result =>
      simp only [callbackStep, hcall, Except.toOption, Option.map_some, Option.some.injEq] at hstep
      subst hstep
      exact registerCallback_withinCapacity h hcall
  | fork =>
    obtain rfl := Option.some.inj hstep
    exact h
  | signal hook ret =>
    rw [callbackStep] at hstep
    split at hstep
    · obtain ⟨handled, hhandle, rfl⟩ := Option.map_eq_some_iff.mp hstep
      exact h.of_info fun info heq => (handleSignal_info hhandle).symm.trans heq
    · exact absurd hstep (by simp)
  | worker ret =>
    rw [callbackStep] at hstep
    split at hstep
    · obtain ⟨handled, hpass, rfl⟩ := Option.map_eq_some_iff.mp hstep
      exact h.of_info fun info heq => (workerPass_info hpass).symm.trans heq
    · exact absurd hstep (by simp)

/-- In every state of every run no count exceeds the capacity of its table, and a registration
leaves the library as it was when it fails and appends exactly its callback when it succeeds,
exactly when it need not start the worker or starts it successfully and finds room in the
table (or does not return at all). -/
theorem registersExactly_throughout (ops : List (CallbackOp F)) :
    Throughout callbackStep (fun p => WithinCapacity p ∧
      ∀ hook func arg context create, RegistersExactly p hook func arg context create ↔
        RegistersSafely p hook context create) .fresh ops := by
  have hbounded : Throughout callbackStep WithinCapacity (.fresh : Process F) ops :=
    throughout_of_step (fun _ _ _ => callbackStep_withinCapacity) (by simp [WithinCapacity, Process.fresh])
      ops
  exact hbounded.mono fun p hp => ⟨hp, registersExactly_iff p⟩

/-- The creation of the thread fails with `EAGAIN` in a process with one callback, which is gone
afterwards; and it succeeds for a callback that finds its table full, which leaves the thread. -/
theorem failed_registration_changes_library :
    (∃ p : Process Unit,
      run callbackStep .fresh [.init .success, .register .chkpt (some ()) 7 .signal 0] = some p ∧
        ¬ RegistersExactly p .rst (some ()) 8 .thread 11) ∧
      ∃ p : Process Unit,
        run callbackStep .fresh
            (.init .success :: List.replicate 40 (.register .chkpt (some ()) 7 .signal 0)) = some p ∧
          ¬ RegistersExactly p .chkpt (some ()) 8 .thread 0 := by
  refine ⟨⟨_, rfl, fun hexact => ?_⟩, ⟨_, rfl, fun hexact => ?_⟩⟩
  · exact absurd ((registersExactly_iff _ _ _ _ _ _).mp hexact _ rfl rfl rfl rfl).1 (by decide)
  · exact absurd ((registersExactly_iff _ _ _ _ _ _).mp hexact _ rfl rfl rfl rfl).2 (by decide)

end Kerrighed.Krgcb
