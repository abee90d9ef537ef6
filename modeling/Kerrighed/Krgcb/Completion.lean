import Kerrighed.Common.Progress
import Kerrighed.Krgcb.Requests
import Kerrighed.Krgcb.WorkerLife
import Mathlib.Algebra.GroupWithZero.Nat

/-!
# Every request for a checkpoint returns

The requests, the signal handler and the worker wait for each other: a request in `msgrcv` for a
verdict, the worker for the handler to unlock the mutex, a pending signal for the handler to
return. Here is why they do not wait for ever.

Two things are shown. The work that a request or a signal can lead to is bounded, whatever the
order of the steps; so the threads never go round in circles. And as long as every verdict is
sent, a queue that was read is removed, and a signal of another hook leaves the worker alone, a
request that waits on an empty queue is owed a verdict by somebody who can still go on. A system
in which nothing can happen any more has answered all its requests.
-/

namespace Kerrighed.Krgcb

open Kerrighed.Common

variable {F : Type}

/-- The label is a step of a request, a delivery or a step of a thread, and no new request or
signal. -/
def RequestLabel.work : RequestLabel → Bool
  | .msgget _ | .signal _ => false
  | _ => true

/-- The number of callbacks in the longest of the three tables. -/
def CrCbInfo.longest (info : CrCbInfo F) : ℕ :=
  max info.crCbCount.chkpt (max info.crCbCount.rst info.crCbCount.cnt)

/-- A bound for the steps of the worker that begin with an unlocked mutex. -/
def turnBound (n : ℕ) : ℕ := 2 * n + 6

/-- A bound for the steps of the worker until it waits for the mutex or ends. -/
def WorkerPc.potential (n : ℕ) : WorkerPc → ℕ
  | .ended => 0
  | .locking => 1
  | .head => 2
  | .starting | .sending _ => 3
  | .testing _ => 4
  | .looping p => 2 * (n - p.idx) + 5
  | .calling p => 2 * (n - (p.idx + 1)) + 6
  | .entering => 2 * n + 6

/-- A bound for the steps of the handler and of the worker that it wakes. -/
def HandlerPc.potential (n : ℕ) : HandlerPc → ℕ
  | .idle => 0
  | .waking => turnBound n + 1
  | .sending _ => turnBound n + 2
  | .tested _ => turnBound n + 3
  | .running => turnBound n + 4

/-- A bound for the steps of the worker that a free mutex allows. -/
def mutexPotential (n : ℕ) : Bool → ℕ
  | true => 0
  | false => turnBound n

/-- A bound for the steps of the application before the next signal. -/
def App.potential (n : ℕ) (a : App F) : ℕ :=
  a.worker.potential n + a.handler.potential n + mutexPotential n a.globals.mutexLocked

/-- A bound for the steps of a request and of the signal that it sends. -/
def Requester.potential (n : ℕ) : Requester → ℕ
  | .returned _ _ => 0
  | .received _ _ _ => 1
  | .waiting _ _ => 2
  | .opened _ => turnBound n + 8

/-- A bound for the steps of the system before the next request. -/
def System.potential (n : ℕ) (s : System F) : ℕ :=
  s.app.potential n + (turnBound n + 5) * s.pending.length +
    (s.requesters.map (·.potential n)).sum

/-- No count of a hook is above the longest. -/
theorem CrCbInfo.cbCountRead_le (info : CrCbInfo F) (hook : CrCbHook) :
    cbCountRead hook info.crCbCount ≤ info.longest := by
  cases hook <;> simp [cbCountRead, CrCbInfo.longest]

/-- Every step of the worker lowers the potential of the application. -/
theorem App.potential_afterWorker {info : CrCbInfo F} {a : App F}
    (hinfo : a.globals.info = some info) {r : ℤ} {m : Move F WorkerPc}
    (hm : WorkerMoves r a.globals a.worker m) :
    (a.afterWorker m).potential info.longest < a.potential info.longest := by
  have hidx {hook : CrCbHook} {idx : ℕ} {info' : CrCbInfo F} (h : a.globals.info = some info')
      (hlt : idx < cbCountRead hook info'.crCbCount) : idx < info.longest := by
    obtain rfl := Option.some.inj (h.symm.trans hinfo)
    exact hlt.trans_le (info'.cbCountRead_le hook)
  obtain ⟨g, handler, worker, log, signals, passes⟩ := a
  simp only [App.potential, App.afterWorker] at hidx ⊢
  cases hm with
  | lock hfree =>
    have hunlocked : g.mutexLocked = false := hfree
    simp only [WorkerPc.potential, hunlocked, mutexPotential, turnBound]
    omega
  | call hinfo' hhook hlt hruns =>
    have hbelow := hidx hinfo' hlt
    simp only [WorkerPc.potential]
    omega
  | skip hinfo' hhook hlt hruns =>
    have hbelow := hidx hinfo' hlt
    simp only [WorkerPc.potential]
    omega
  | _ =>
    simp only [WorkerPc.potential]
    omega

/-- Every step of the handler lowers the potential of the application. -/
theorem App.potential_afterHandler {a : App F} (n : ℕ) {ret : ℕ → ℤ} {m : Move F HandlerPc}
    (hm : HandlerMoves ret a.globals a.handler m) :
    (a.afterHandler m).potential n < a.potential n := by
  obtain ⟨g, handler, worker, log, signals, passes⟩ := a
  simp only [App.potential, App.afterHandler]
  cases hm with
  | wake =>
    cases hrunning : g.threadRunning with
    | false =>
      simp only [HandlerPc.potential, wakeWorker, hrunning, Bool.false_eq_true, if_false]
      omega
    | true =>
      simp only [HandlerPc.potential, wakeWorker, hrunning, mutexPotential, if_true]
      omega
  | _ =>
    simp only [HandlerPc.potential]
    omega

/-- The potential of the requests after one of them has gone on. -/
theorem sum_potential_set (n : ℕ) {requesters : List Requester} {i : ℕ} {x : Requester}
    (hi : requesters[i]? = some x) (y : Requester) :
    ((requesters.set i y).map (·.potential n)).sum + x.potential n =
      (requesters.map (·.potential n)).sum + y.potential n := by
  induction requesters generalizing i with
  | nil => simp at hi
  | cons z rest ih =>
    cases i with
    | zero =>
      obtain rfl : z = x := by simpa using hi
      simp only [List.set_cons_zero, List.map_cons, List.sum_cons]
      omega
    | succ i =>
      have hrest := ih (by simpa using hi)
      simp only [List.set_cons_succ, List.map_cons, List.sum_cons]
      omega

/-- The kinds of steps of the system, with what each needs and leads to. -/
inductive RequestMoves (s : System F) : RequestLabel → System F → Prop
  | join {q : MessageQueue} (hqueue : s.queue = some q) :
      RequestMoves s (.msgget true) (s.addRequester (.opened q.msqid))
  | create (hqueue : s.queue = none) :
      RequestMoves s (.msgget true)
        { s.addRequester (.opened s.nextId) with
          queue := some ⟨s.nextId, []⟩
          nextId := s.nextId + 1 }
  | refuse :
      RequestMoves s (.msgget false) (s.addRequester (.returned (-1) s.app.log.length))
  | ask {i msqid : ℕ} (hi : s.requesters[i]? = some (.opened msqid)) :
      RequestMoves s (.kill i true)
        { s.setRequester i (.waiting msqid s.app.log.length) with
          pending := s.pending ++ [.chkpt] }
  | unsent {i msqid : ℕ} (hi : s.requesters[i]? = some (.opened msqid)) :
      RequestMoves s (.kill i false) (s.setRequester i (.returned (-1) s.app.log.length))
  | receive {i msqid mark : ℕ} {m : CrCbStatus} {rest : List CrCbStatus}
      (hi : s.requesters[i]? = some (.waiting msqid mark))
      (hmessages : s.messages msqid = some (m :: rest)) :
      RequestMoves s (.msgrcv i true)
        { s.setRequester i (.received msqid mark m) with queue := some ⟨msqid, rest⟩ }
  | unread {i msqid mark : ℕ} {ok : Bool} (hi : s.requesters[i]? = some (.waiting msqid mark)) :
      RequestMoves s (.msgrcv i ok) (s.setRequester i (.returned (-1) mark))
  | remove {i msqid mark : ℕ} {m : CrCbStatus}
      (hi : s.requesters[i]? = some (.received msqid mark m)) :
      RequestMoves s (.msgctl i true)
        { s.setRequester i (.returned (if m = .err then -1 else 0) mark) with queue := none }
  | unremoved {i msqid mark : ℕ} {m : CrCbStatus} {ok : Bool}
      (hi : s.requesters[i]? = some (.received msqid mark m))
      (hgone : ok = true → s.messages msqid = none) :
      RequestMoves s (.msgctl i ok) (s.setRequester i (.returned (-1) mark))
  | signal {hook : CrCbHook} (hother : hook ≠ .chkpt) :
      RequestMoves s (.signal hook) { s with pending := s.pending ++ [hook] }
  | deliver {k : ℕ} {hook : CrCbHook} (hk : s.pending[k]? = some hook)
      (hidle : s.app.handler = .idle) :
      RequestMoves s (.deliver k)
        { s with app := s.app.afterDeliver hook, pending := s.pending.eraseIdx k }
  | handler {ret : ℕ → ℤ} {sent : Bool} {m : Move F HandlerPc}
      (hm : HandlerMoves ret s.app.globals s.app.handler m) :
      RequestMoves s (.handler ret sent)
        { s with app := s.app.afterHandler m, queue := sendMessage s.queue m.message sent }
  | worker {r : ℤ} {sent : Bool} {m : Move F WorkerPc}
      (hm : WorkerMoves r s.app.globals s.app.worker m) :
      RequestMoves s (.worker r sent)
        { s with app := s.app.afterWorker m, queue := sendMessage s.queue m.message sent }

/-- Every step of the system is of one of these kinds. -/
theorem requestMoves_of_step {s t : System F} {l : RequestLabel} (h : requestStep s l = some t) :
    RequestMoves s l t := by
  cases l with
  | msgget ok =>
    cases ok with
    | false =>
      obtain rfl := Option.some.inj h
      exact .refuse
    | true =>
      cases hqueue : s.queue with
      | some q =>
        simp only [requestStep, hqueue, if_true, Option.some.injEq] at h
        exact h ▸ .join hqueue
      | none =>
        simp only [requestStep, hqueue, if_true, Option.some.injEq] at h
        exact h ▸ .create hqueue
  | kill i ok =>
    simp only [requestStep] at h
    split at h
    · rename_i msqid hi
      cases ok with
      | true => exact Option.some.inj h ▸ .ask hi
      | false => exact Option.some.inj h ▸ .unsent hi
    · cases h
  | msgrcv i ok =>
    simp only [requestStep] at h
    split at h
    · rename_i msqid mark hi
      split at h <;> cases h
      · exact .receive hi ‹_›
      · exact .unread hi
    · cases h
  | msgctl i ok =>
    simp only [requestStep] at h
    split at h
    · rename_i msqid mark m hi
      split at h <;> cases h
      · exact .remove hi
      · rename_i hnot
        refine .unremoved hi fun hok => ?_
        cases hmessages : s.messages msqid with
        | none => rfl
        | some messages => exact absurd hmessages (hnot messages hok)
    · cases h
  | signal hook =>
    simp only [requestStep] at h
    split at h <;> cases h
    exact .signal ‹_›
  | deliver k =>
    obtain ⟨hook, hk, h⟩ := Option.bind_eq_some_iff.mp h
    obtain ⟨⟨a, message⟩, happ, h⟩ := Option.bind_eq_some_iff.mp h
    simp only [appStep] at happ
    split at happ <;> cases happ
    cases h
    exact .deliver hk (And.left ‹_›)
  | handler ret sent =>
    obtain ⟨⟨a, message⟩, happ, h⟩ := Option.bind_eq_some_iff.mp h
    obtain ⟨m, hm, happ⟩ := Option.bind_eq_some_iff.mp happ
    cases happ
    cases h
    exact .handler (handlerMoves_of_step hm)
  | worker r sent =>
    obtain ⟨⟨a, message⟩, happ, h⟩ := Option.bind_eq_some_iff.mp h
    obtain ⟨m, hm, happ⟩ := Option.bind_eq_some_iff.mp happ
    cases happ
    cases h
    exact .worker (workerMoves_of_step hm)

/-- The registry stays where it is. -/
theorem RequestMoves.info {s t : System F} {l : RequestLabel} (h : RequestMoves s l t) :
    t.app.globals.info = s.app.globals.info := by
  cases h with
  | handler hm => exact hm.frame.1
  | worker hm => exact hm.frame.1
  | _ => rfl

/-- Every step of work lowers the potential of the system. -/
theorem RequestMoves.potential_lt {info : CrCbInfo F} {s t : System F} {l : RequestLabel}
    (h : RequestMoves s l t) (hinfo : s.app.globals.info = some info) (hwork : l.work = true) :
    t.potential info.longest < s.potential info.longest := by
  cases h with
  | join | create | refuse | signal => simp [RequestLabel.work] at hwork
  | @ask i msqid hi =>
    have hsum := sum_potential_set info.longest hi (.waiting msqid s.app.log.length)
    simp only [System.potential, System.setRequester, Requester.potential, List.length_append,
      List.length_singleton, Nat.mul_add] at hsum ⊢
    omega
  | unsent hi =>
    have hsum := sum_potential_set info.longest hi (.returned (-1) s.app.log.length)
    simp only [System.potential, System.setRequester, Requester.potential] at hsum ⊢
    omega
  | @receive i msqid mark m rest hi hmessages =>
    have hsum := sum_potential_set info.longest hi (.received msqid mark m)
    simp only [System.potential, System.setRequester, Requester.potential] at hsum ⊢
    omega
  | @unread i msqid mark ok hi =>
    have hsum := sum_potential_set info.longest hi (.returned (-1) mark)
    simp only [System.potential, System.setRequester, Requester.potential] at hsum ⊢
    omega
  | @remove i msqid mark m hi =>
    have hsum := sum_potential_set info.longest hi (.returned (if m = .err then -1 else 0) mark)
    simp only [System.potential, System.setRequester, Requester.potential] at hsum ⊢
    omega
  | @unremoved i msqid mark m ok hi =>
    have hsum := sum_potential_set info.longest hi (.returned (-1) mark)
    simp only [System.potential, System.setRequester, Requester.potential] at hsum ⊢
    omega
  | @deliver k hook hk hidle =>
    obtain ⟨hlt, -⟩ := List.getElem?_eq_some_iff.mp hk
    have hlength : (s.pending.eraseIdx k).length + 1 = s.pending.length := by
      rw [List.length_eraseIdx_of_lt hlt]
      omega
    simp only [System.potential, App.potential, App.afterDeliver, HandlerPc.potential, hidle,
      ← hlength, Nat.mul_add]
    omega
  | handler hm =>
    have hlt := App.potential_afterHandler info.longest hm
    simp only [System.potential]
    omega
  | worker hm =>
    have hlt := App.potential_afterWorker hinfo hm
    simp only [System.potential]
    omega

/-- A new request or signal raises the potential by at most one price. -/
theorem RequestMoves.potential_le {s t : System F} {l : RequestLabel} (h : RequestMoves s l t)
    (n : ℕ) (hwork : l.work = false) : t.potential n ≤ s.potential n + (2 * n + 14) := by
  cases h with
  | join | create | refuse =>
    simp only [System.potential, System.addRequester, List.map_append, List.map_cons, List.map_nil,
      List.sum_append, List.sum_cons, List.sum_nil, Requester.potential, turnBound]
    omega
  | signal =>
    simp only [System.potential, List.length_append, List.length_singleton, turnBound, Nat.mul_add]
    omega
  | _ => simp [RequestLabel.work] at hwork

/-- Before the first request the potential is below the price of one. -/
theorem System.potential_start (x : Application F) :
    (System.start x).potential x.info.longest ≤ 2 * x.info.longest + 14 := by
  obtain ⟨info, threadRunning, worker, threaded⟩ := x
  cases worker <;> cases threadRunning <;>
    simp [System.potential, System.start, Application.start, App.potential, WorkerPc.potential,
      HandlerPc.potential, mutexPotential, turnBound]
  omega

/-- Whatever the order of the steps and the outcomes of the calls, each request and each signal leads
to a bounded number of steps of the requests, the handler and the worker. -/
theorem work_bounded (x : Application F) (labels : List RequestLabel) {t : System F}
    (hrun : run requestStep (.start x) labels = some t) :
    labels.countP RequestLabel.work ≤
      (2 * x.info.longest + 14) * (labels.countP (!·.work) + 1) := by
  have hpaid := work_le (fun s : System F => s.app.globals.info = some x.info)
    (System.potential x.info.longest) RequestLabel.work (2 * x.info.longest + 14)
    (fun _ _ _ hinfo hstep => (requestMoves_of_step hstep).info.trans hinfo)
    (fun _ _ _ hinfo hwork hstep => (requestMoves_of_step hstep).potential_lt hinfo hwork)
    (fun _ _ _ _ hwork hstep => (requestMoves_of_step hstep).potential_le _ hwork) rfl hrun
  have hstart := System.potential_start x
  rw [Nat.mul_add, Nat.mul_one]
  omega

/-- Two requests at once: one takes the verdict and removes the queue of both, and the second signal
is handled when nobody waits any more. -/
def concurrentLabels : List RequestLabel :=
  [.worker 0 true, .worker 0 true, .msgget true, .msgget true, .kill 0 true, .kill 1 true,
    .deliver 0] ++ .replicate 3 (.handler (fun _ => 0) true) ++ .replicate 9 (.worker 0 true) ++
  [.msgrcv 1 true, .msgctl 1 true, .msgrcv 0 true, .deliver 0] ++
    .replicate 3 (.handler (fun _ => 0) true) ++ .replicate 9 (.worker 0 true)

/-- The work of the two requests is bounded. -/
theorem concurrent_work_bounded :
    concurrentLabels.countP RequestLabel.work ≤
      (2 * bothContexts.info.longest + 14) * (concurrentLabels.countP (!·.work) + 1) :=
  work_bounded bothContexts concurrentLabels
    (t := (run requestStep (.start bothContexts) concurrentLabels).get (by decide))
    (Option.some_get _).symm

/-- The call or the message of the step succeeds. -/
def RequestLabel.succeeds : RequestLabel → Bool
  | .msgget ok | .kill _ ok | .msgrcv _ ok | .msgctl _ ok => ok
  | .handler _ sent | .worker _ sent => sent
  | .signal _ | .deliver _ => true

/-- A queue that was read is removed, every verdict is sent, and a signal of another hook is only
handled while the worker is idle. -/
def Dependable (s : System F) : RequestLabel → Prop
  | .msgctl _ ok => ok = true
  | .deliver k => ∀ hook ∈ s.pending[k]?, hook ≠ .chkpt → s.app.WorkerIdle
  | .handler _ sent | .worker _ sent => sent = true
  | _ => True

instance : ∀ (s : System F) l, Decidable (Dependable s l)
  | s, .deliver k => inferInstanceAs (Decidable (∀ hook ∈ s.pending[k]?, hook ≠ .chkpt →
      s.app.WorkerIdle))
  | _, .msgctl _ ok => inferInstanceAs (Decidable (ok = true))
  | _, .handler _ sent | _, .worker _ sent => inferInstanceAs (Decidable (sent = true))
  | _, .msgget _ | _, .kill _ _ | _, .msgrcv _ _ | _, .signal _ =>
    inferInstanceAs (Decidable True)

/-- The step is work that succeeds. -/
def GoesOn (s : System F) (l : RequestLabel) : Prop :=
  l.work = true ∧ l.succeeds = true ∧ Dependable s l

/-- The request has returned. -/
def Requester.isReturned : Requester → Bool
  | .returned _ _ => true
  | _ => false

/-- The worker is gone or waits for a locked mutex. -/
def App.WorkerBlocked (a : App F) : Prop :=
  a.worker = .ended ∨ (a.globals.mutexLocked = true ∧ a.worker = .locking)

instance (a : App F) : Decidable a.WorkerBlocked :=
  inferInstanceAs (Decidable (a.worker = .ended ∨
    (a.globals.mutexLocked = true ∧ a.worker = .locking)))

/-- All requests have returned, all signals have been handled, and the worker is blocked. -/
structure System.Complete (s : System F) : Prop where
  returned : ∀ x ∈ s.requesters, x.isReturned = true
  handled : s.pending = []
  handler : s.app.handler = .idle
  worker : s.app.WorkerBlocked

/-- The queue of a request that has not returned. -/
def Requester.queue : Requester → Option ℕ
  | .opened msqid | .waiting msqid _ | .received msqid _ _ => some msqid
  | .returned _ _ => none

/-- The request has read the queue and is about to remove it. -/
def Requester.removes (msqid : ℕ) : Requester → Bool
  | .received q _ _ => q = msqid
  | _ => false

/-- A verdict on a checkpoint signal is coming from the handler or from the worker. -/
def App.Coming (a : App F) : Prop :=
  a.globals.currentHook = some .chkpt ∧
    match a.handler with
    | .running | .tested _ | .sending _ => True
    | .waking => a.globals.threadRunning = true
    | .idle => a.globals.threadRunning = true ∧ ¬ a.WorkerIdle

/-- Somebody removes the queue, or a checkpoint signal is pending or will lead to a verdict. -/
def System.Owes (s : System F) (msqid : ℕ) : Prop :=
  (∃ x ∈ s.requesters, x.removes msqid = true) ∨ .chkpt ∈ s.pending ∨ s.app.Coming

/-- The invariant of the dependable runs: the worker is there if it should be, identifiers are fresh,
and a request that waits on an empty queue is owed a verdict. -/
structure Promised (info : CrCbInfo F) (s : System F) : Prop where
  registry : s.app.globals.info = some info
  alive : s.app.globals.threadRunning = true → s.app.worker ≠ .ended
  fresh : ∀ x ∈ s.requesters, ∀ msqid ∈ x.queue, msqid < s.nextId
  named : ∀ q ∈ s.queue, q.msqid < s.nextId
  owed : ∀ x ∈ s.requesters, ∀ msqid, x.waitsOn msqid = true → s.messages msqid = some [] →
    s.Owes msqid

/-- A worker with a turn ahead keeps it until it sends a verdict on the checkpoint. -/
theorem App.Coming.afterWorker {a : App F} (h : a.Coming)
    (halive : a.globals.threadRunning = true → a.worker ≠ .ended) {r : ℤ} {m : Move F WorkerPc}
    (hm : WorkerMoves r a.globals a.worker m) (hsilent : m.message = none) :
    (a.afterWorker m).Coming := by
  obtain ⟨hinfo, hrunning, hhook⟩ := hm.frame
  obtain ⟨hchkpt, hhandler⟩ := h
  refine ⟨hhook.trans hchkpt, ?_⟩
  obtain ⟨g, handler, worker, log, signals, passes⟩ := a
  cases handler with
  | idle =>
    obtain ⟨hrun, hbusy⟩ := hhandler
    refine ⟨hrunning.trans hrun, ?_⟩
    simp only [App.WorkerIdle, App.afterWorker, not_or, not_and] at hbusy hchkpt hrun ⊢
    cases hm with
    | leave hstop => exact absurd (hstop.symm.trans hrun) (by simp)
    | unknown hnone => exact absurd (hnone.symm.trans hchkpt) (by simp)
    | lost hnone => exact absurd (hnone.symm.trans hchkpt) (by simp)
    | silent hmessage => simp [workerMessage, hchkpt] at hmessage
    | send => simp at hsilent
    | _ => simp_all [WorkerPc.waits]
  | waking => exact hrunning.trans hhandler
  | _ => trivial

/-- A handler of a checkpoint signal sends a verdict or wakes a worker that will. -/
theorem App.Coming.afterHandler {a : App F} (h : a.Coming)
    (halive : a.globals.threadRunning = true → a.worker ≠ .ended) {ret : ℕ → ℤ}
    {m : Move F HandlerPc} (hm : HandlerMoves ret a.globals a.handler m)
    (hsilent : m.message = none) : (a.afterHandler m).Coming := by
  obtain ⟨hinfo, hrunning, hhook⟩ := hm.frame
  obtain ⟨hchkpt, hhandler⟩ := h
  refine ⟨hhook.trans hchkpt, ?_⟩
  obtain ⟨g, handler, worker, log, signals, passes⟩ := a
  simp only at hchkpt halive
  cases hm with
  | silent hmessage =>
    cases hrun : g.threadRunning with
    | true => exact hrun
    | false =>
      simp only [handlerMessage, hchkpt, hrun, if_true, Bool.false_eq_true, if_false] at hmessage
      split at hmessage <;> cases hmessage
  | send => simp at hsilent
  | wake =>
    have hrun : g.threadRunning = true := hhandler
    simp only [App.afterHandler, App.WorkerIdle, wakeWorker, hrun, if_true, true_and]
    simp [halive hrun]
  | _ => trivial

/-- Another request is still there after one of them has gone on. -/
theorem mem_setRequester {s : System F} {i : ℕ} {x y z : Requester}
    (hi : s.requesters[i]? = some x) (hz : z ∈ s.requesters) (hne : z ≠ x) :
    z ∈ (s.setRequester i y).requesters := by
  obtain ⟨j, hj⟩ := List.mem_iff_getElem?.mp hz
  have hij : i ≠ j := by
    rintro rfl
    exact hne (Option.some.inj (hj.symm.trans hi))
  refine List.mem_iff_getElem?.mpr ⟨j, ?_⟩
  rw [System.setRequester, List.getElem?_set_ne hij, hj]

/-- A request that goes on without waiting or leaving a queue to be removed takes nothing from the
others. -/
theorem Promised.setRequester {info : CrCbInfo F} {s : System F} (h : Promised info s) {i : ℕ}
    {x y : Requester} (hi : s.requesters[i]? = some x) (hy : y.queue = none)
    (hremoves : ∀ msqid, x.removes msqid = true → s.messages msqid = none) :
    Promised info (s.setRequester i y) := by
  have hwaits (msqid : ℕ) : y.waitsOn msqid = false := by
    cases y with
    | returned r mark => rfl
    | _ => simp [Requester.queue] at hy
  refine ⟨h.registry, h.alive, fun z hz => ?_, h.named, fun z hz msqid hwait hempty => ?_⟩
  · rcases List.mem_or_eq_of_mem_set hz with hz | rfl
    · exact h.fresh z hz
    · simp [hy]
  · rcases List.mem_or_eq_of_mem_set hz with hz | rfl
    · refine (h.owed z hz msqid hwait hempty).imp_left fun ⟨w, hw, hremove⟩ => ⟨w, ?_, hremove⟩
      refine mem_setRequester hi hw fun hsame => ?_
      have hgone := hremoves msqid (hsame ▸ hremove)
      exact absurd (hempty.symm.trans hgone) (by simp)
    · simp [hwaits msqid] at hwait

/-- A new request that does not wait takes nothing from the others. -/
theorem Promised.addRequester {info : CrCbInfo F} {s : System F} (h : Promised info s)
    {x : Requester} (hfresh : ∀ msqid ∈ x.queue, msqid < s.nextId)
    (hwaits : ∀ msqid, x.waitsOn msqid = false) : Promised info (s.addRequester x) := by
  refine ⟨h.registry, h.alive, fun z hz => ?_, h.named, fun z hz msqid hwait hempty => ?_⟩
  · rcases List.mem_append.mp hz with hz | hz
    · exact h.fresh z hz
    · rw [List.mem_singleton.mp hz]
      exact hfresh
  · rcases List.mem_append.mp hz with hz | hz
    · refine (h.owed z hz msqid hwait hempty).imp_left fun ⟨w, hw, hremove⟩ => ⟨w, ?_, hremove⟩
      exact List.mem_append_left [x] hw
    · simp [List.mem_singleton.mp hz, hwaits msqid] at hwait

/-- A thread that goes on sends the verdict that is owed or still owes it. -/
theorem Promised.setApp {info : CrCbInfo F} {s : System F} (h : Promised info s) {a : App F}
    (message : Option CrCbStatus) (hinfo : a.globals.info = some info)
    (halive : a.globals.threadRunning = true → a.worker ≠ .ended)
    (hcoming : message = none → s.app.Coming → a.Coming) :
    Promised info { s with app := a, queue := sendMessage s.queue message true } := by
  refine ⟨hinfo, halive, h.fresh, fun q hq => ?_, fun x hx msqid hwait hempty => ?_⟩
  · obtain ⟨q', hq', rfl⟩ := Option.map_eq_some_iff.mp hq
    exact h.named q' hq'
  · rw [messages_sendMessage] at hempty
    obtain ⟨before, hbefore, hnil⟩ := Option.map_eq_some_iff.mp hempty
    obtain ⟨rfl, hnone⟩ := List.append_eq_nil_iff.mp hnil
    have hsilent : message = none := by
      cases message with
      | none => rfl
      | some verdict => simp at hnone
    exact (h.owed x hx msqid hwait hbefore).imp_right fun howes =>
      howes.imp_right (hcoming hsilent)

/-- Every dependable step keeps the invariant. -/
theorem RequestMoves.promised {info : CrCbInfo F} {s t : System F} {l : RequestLabel}
    (hmoves : RequestMoves s l t) (h : Promised info s) (hcond : Dependable s l) :
    Promised info t := by
  cases hmoves with
  | join hqueue =>
    refine h.addRequester (fun msqid hmsqid => ?_) fun _ => rfl
    obtain rfl := Option.some.inj hmsqid
    exact h.named _ hqueue
  | create hqueue =>
    have hcreate : Promised info
        { s with queue := some ⟨s.nextId, []⟩, nextId := s.nextId + 1 } := by
      refine ⟨h.registry, h.alive, fun x hx msqid hmsqid => ?_, fun q hq => ?_,
        fun x hx msqid hwait hempty => ?_⟩
      · exact (h.fresh x hx msqid hmsqid).trans (Nat.lt_succ_self _)
      · obtain rfl := Option.some.inj hq
        exact Nat.lt_succ_self _
      · obtain ⟨rfl, -⟩ := MessageQueue.mk.inj (Option.some.inj (System.messages_eq_some.mp hempty))
        have hbelow : s.nextId < s.nextId := by
          refine h.fresh x hx s.nextId ?_
          cases x with
          | waiting q mark =>
            obtain rfl : q = s.nextId := by simpa [Requester.waitsOn] using hwait
            rfl
          | _ => simp [Requester.waitsOn] at hwait
        exact absurd hbelow (Nat.lt_irrefl _)
    exact hcreate.addRequester (x := .opened s.nextId) (fun msqid hmsqid => by
      obtain rfl := Option.some.inj hmsqid
      exact Nat.lt_succ_self _) fun _ => rfl
  | refuse => exact h.addRequester (by simp [Requester.queue]) fun _ => rfl
  | @ask i msqid hi =>
    refine ⟨h.registry, h.alive, fun x hx => ?_, h.named, fun x hx q hwait hempty => ?_⟩
    · rcases List.mem_or_eq_of_mem_set hx with hx | rfl
      · exact h.fresh x hx
      · exact h.fresh (.opened msqid) (List.mem_of_getElem? hi)
    · exact Or.inr (Or.inl (by simp))
  | unsent hi => exact h.setRequester hi rfl (by simp [Requester.removes])
  | unread hi => exact h.setRequester hi rfl (by simp [Requester.removes])
  | @receive i msqid mark m rest hi hmessages =>
    have hqueue := System.messages_eq_some.mp hmessages
    refine ⟨h.registry, h.alive, fun x hx => ?_, fun q hq => ?_, fun x hx q hwait hempty => ?_⟩
    · rcases List.mem_or_eq_of_mem_set hx with hx | rfl
      · exact h.fresh x hx
      · exact h.fresh (.waiting msqid mark) (List.mem_of_getElem? hi)
    · obtain rfl := Option.some.inj hq
      exact h.named ⟨msqid, m :: rest⟩ hqueue
    · obtain ⟨rfl, -⟩ := MessageQueue.mk.inj (Option.some.inj (System.messages_eq_some.mp hempty))
      obtain ⟨hlt, -⟩ := List.getElem?_eq_some_iff.mp hi
      exact Or.inl ⟨_, List.mem_set hlt _, by simp [Requester.removes]⟩
  | @remove i msqid mark m hi =>
    refine ⟨h.registry, h.alive, fun x hx => ?_, by simp, fun x hx q hwait hempty => ?_⟩
    · rcases List.mem_or_eq_of_mem_set hx with hx | rfl
      · exact h.fresh x hx
      · simp [Requester.queue]
    · simp [System.messages] at hempty
  | @unremoved i msqid mark m ok hi hgone =>
    refine h.setRequester hi rfl fun q hremoves => ?_
    obtain rfl : msqid = q := by simpa [Requester.removes] using hremoves
    exact hgone hcond
  | signal hother =>
    refine ⟨h.registry, h.alive, h.fresh, h.named, fun x hx msqid hwait hempty => ?_⟩
    exact (h.owed x hx msqid hwait hempty).imp_right fun howes =>
      howes.imp_left (List.mem_append_left _)
  | @deliver k hook hk hidle =>
    refine ⟨h.registry, h.alive, h.fresh, h.named, fun x hx msqid hwait hempty => ?_⟩
    by_cases hchkpt : hook = .chkpt
    · exact Or.inr (Or.inr ⟨congrArg some hchkpt, trivial⟩)
    · have hworker := hcond hook hk hchkpt
      refine (h.owed x hx msqid hwait hempty).imp_right fun howes => Or.inl ?_
      rcases howes with hpending | ⟨-, hcoming⟩
      · obtain ⟨j, hj⟩ := List.mem_iff_getElem?.mp hpending
        refine List.mem_eraseIdx_iff_getElem?.mpr ⟨j, fun hjk => ?_, hj⟩
        exact hchkpt (Option.some.inj ((hjk ▸ hk).symm.trans hj))
      · rw [hidle] at hcoming
        exact absurd hworker hcoming.2
  | @handler ret sent m hm =>
    obtain rfl : sent = true := hcond
    obtain ⟨hinfo, hrunning, -⟩ := hm.frame
    refine h.setApp m.message (hinfo.trans h.registry) ?_ fun hsilent hcoming =>
      hcoming.afterHandler h.alive hm hsilent
    exact fun hrun => h.alive (hrunning.symm.trans hrun)
  | @worker r sent m hm =>
    obtain rfl : sent = true := hcond
    obtain ⟨hinfo, hrunning, -⟩ := hm.frame
    refine h.setApp m.message (hinfo.trans h.registry) ?_ fun hsilent hcoming =>
      hcoming.afterWorker h.alive hm hsilent
    intro hrun hended
    exact absurd (hm.running_of_ended hended) (by simp [hrunning.symm.trans hrun])

/-- A worker that cannot go on is blocked. -/
theorem App.workerBlocked_of_step {info : CrCbInfo F} {a : App F}
    (hinfo : a.globals.info = some info) {r : ℤ}
    (hstep : workerStep r a.globals a.worker = none) :
    a.WorkerBlocked := by
  obtain ⟨⟨info', threadRunning, currentHook, mutexLocked⟩, handler, worker, log, signals, passes⟩ :=
    a
  obtain rfl : info' = some info := hinfo
  cases worker with
  | ended => exact Or.inl rfl
  | locking =>
    simp only [workerStep, lockMutex, Option.map_eq_none_iff] at hstep
    split at hstep
    · exact Or.inr ⟨‹_›, rfl⟩
    · cases hstep
  | entering => cases currentHook <;> simp [workerStep] at hstep
  | looping p =>
    cases currentHook with
    | none => simp [workerStep] at hstep
    | some hook =>
      simp only [workerStep] at hstep
      split at hstep
      · split at hstep <;> cases hstep
      · cases hstep
  | testing r' =>
    simp only [workerStep] at hstep
    split at hstep <;> cases hstep
  | calling p =>
    simp only [workerStep] at hstep
    split at hstep <;> cases hstep
  | _ => simp [workerStep] at hstep

/-- A blocked worker cannot go on. -/
theorem App.WorkerBlocked.step {a : App F} (h : a.WorkerBlocked) (r : ℤ) :
    workerStep r a.globals a.worker = none := by
  rcases h with hended | ⟨hlocked, hlocking⟩
  · rw [hended, workerStep]
  · rw [hlocking, workerStep, lockMutex, hlocked]
    rfl

/-- A blocked worker is idle. -/
theorem App.WorkerBlocked.idle {a : App F} (h : a.WorkerBlocked) : a.WorkerIdle :=
  h.imp_right fun ⟨hlocked, hlocking⟩ => ⟨hlocked, by rw [hlocking]; rfl⟩

/-- A handler that cannot go on has returned. -/
theorem handler_idle_of_step {info : CrCbInfo F} {g : Globals F} (hinfo : g.info = some info)
    {ret : ℕ → ℤ} {pc : HandlerPc} (hstep : handlerStep ret g pc = none) : pc = .idle := by
  cases pc with
  | idle => rfl
  | running =>
    cases hhook : g.currentHook <;> simp [handlerStep, runCallbacks, hinfo, hhook] at hstep
  | tested r =>
    simp only [handlerStep] at hstep
    split at hstep <;> cases hstep
  | _ => simp [handlerStep] at hstep

/-- A system that can only wait for failures, new requests or new signals is complete. -/
theorem Promised.complete {info : CrCbInfo F} {s : System F} (h : Promised info s)
    (hexhausted : Exhausted requestStep GoesOn s) : s.Complete := by
  have hhandler : s.app.handler = .idle := by
    have hstep := hexhausted (.handler (fun _ => 0) true) ⟨rfl, rfl, rfl⟩
    cases hm : handlerStep (fun _ => 0) s.app.globals s.app.handler with
    | none => exact handler_idle_of_step h.registry hm
    | some m => simp [requestStep, appStep, hm] at hstep
  have hworker : s.app.WorkerBlocked := by
    have hstep := hexhausted (.worker 0 true) ⟨rfl, rfl, rfl⟩
    cases hm : workerStep 0 s.app.globals s.app.worker with
    | none => exact App.workerBlocked_of_step h.registry hm
    | some m => simp [requestStep, appStep, hm] at hstep
  have hpending : s.pending = [] := by
    cases hp : s.pending with
    | nil => rfl
    | cons hook rest =>
      have hstep := hexhausted (.deliver 0) ⟨rfl, rfl, fun _ _ _ => hworker.idle⟩
      simp [requestStep, appStep, hp, hhandler, h.registry] at hstep
  have hremoves (x : Requester) (hx : x ∈ s.requesters) (msqid : ℕ) : x.removes msqid = false := by
    obtain ⟨i, hi⟩ := List.mem_iff_getElem?.mp hx
    cases x with
    | received q mark m =>
      have hstep := hexhausted (.msgctl i true) ⟨rfl, rfl, rfl⟩
      simp only [requestStep, hi] at hstep
      split at hstep <;> cases hstep
    | _ => rfl
  refine ⟨fun x hx => ?_, hpending, hhandler, hworker⟩
  obtain ⟨i, hi⟩ := List.mem_iff_getElem?.mp hx
  cases x with
  | opened msqid =>
    have hstep := hexhausted (.kill i true) ⟨rfl, rfl, trivial⟩
    simp [requestStep, hi] at hstep
  | waiting msqid mark =>
    have hstep := hexhausted (.msgrcv i true) ⟨rfl, rfl, trivial⟩
    simp only [requestStep, hi] at hstep
    split at hstep
    · cases hstep
    · rename_i hempty
      rcases h.owed _ hx msqid (by simp [Requester.waitsOn]) hempty with
        ⟨y, hy, hremove⟩ | hpend | ⟨-, hcoming⟩
      · exact absurd hremove (by simp [hremoves y hy])
      · simp [hpending] at hpend
      · rw [hhandler] at hcoming
        exact absurd hworker.idle hcoming.2
    · cases hstep
  | received msqid mark m =>
    have hnot := hremoves _ hx msqid
    simp [Requester.removes] at hnot
  | returned r mark => rfl

/-- In a complete system nothing happens before a new request or signal. -/
theorem System.Complete.exhausted {s : System F} (h : s.Complete) :
    Exhausted requestStep GoesOn s := by
  have hgone {i : ℕ} {x : Requester} (hi : s.requesters[i]? = some x)
      (hx : x.isReturned = false) : False :=
    absurd (h.returned x (List.mem_of_getElem? hi)) (by simp [hx])
  rintro l ⟨hwork, -, -⟩
  cases hstep : requestStep s l with
  | none => rfl
  | some t =>
    cases requestMoves_of_step hstep with
    | join | create | refuse | signal => simp [RequestLabel.work] at hwork
    | ask hi => exact (hgone hi rfl).elim
    | unsent hi => exact (hgone hi rfl).elim
    | receive hi => exact (hgone hi rfl).elim
    | unread hi => exact (hgone hi rfl).elim
    | remove hi => exact (hgone hi rfl).elim
    | unremoved hi => exact (hgone hi rfl).elim
    | deliver hk => simp [h.handled] at hk
    | handler hm =>
      rw [h.handler] at hm
      cases hm
    | @worker r sent m hm =>
      have hblocked := h.worker.step r
      simp [requestStep, appStep, hblocked] at hstep

/-- The invariant holds before the first request if the worker is there. -/
theorem promised_start {x : Application F} (hworker : x.threadRunning = true → x.worker = true) :
    Promised x.info (.start x) := by
  refine ⟨rfl, fun hrun => ?_, by simp [System.start], by simp [System.start], by simp [System.start]⟩
  simp only [System.start, Application.start] at hrun ⊢
  rw [hworker hrun]
  simp

/-- When a dependable run of an application with its worker cannot go on before a failure or a new
request, every request has returned, and the handler and the worker are back where they wait. -/
theorem requests_complete (x : Application F) (hworker : x.threadRunning = true → x.worker = true)
    (labels : List RequestLabel) {t : System F}
    (hrun : run requestStep (.start x) labels = some t)
    (halong : Along requestStep Dependable (.start x) labels)
    (hexhausted : Exhausted requestStep GoesOn t) : t.Complete := by
  have hpromised := throughout_of_along
    (fun _ _ _ h hcond hstep => (requestMoves_of_step hstep).promised h hcond)
    (promised_start hworker) labels halong
  exact (hpromised.finish hrun).complete hexhausted

/-- Both requests return. -/
theorem concurrent_requests_complete :
    ∃ t, run requestStep (.start bothContexts) concurrentLabels = some t ∧ t.Complete := by
  refine ⟨(run requestStep (.start bothContexts) concurrentLabels).get (by decide),
    (Option.some_get _).symm, ?_⟩
  refine requests_complete bothContexts (by decide) concurrentLabels (Option.some_get _).symm
    (by decide) ?_
  exact System.Complete.exhausted ⟨by decide, by decide, by decide, by decide⟩

/-- From every state of a dependable run the requests can all be brought to their end. -/
theorem exists_completion (x : Application F) (hworker : x.threadRunning = true → x.worker = true)
    (labels : List RequestLabel) {s : System F}
    (hrun : run requestStep (.start x) labels = some s)
    (halong : Along requestStep Dependable (.start x) labels) :
    ∃ more t, run requestStep s more = some t ∧ Along requestStep GoesOn s more ∧ t.Complete := by
  have hpromised := throughout_of_along
    (fun _ _ _ h hcond hstep => (requestMoves_of_step hstep).promised h hcond)
    (promised_start hworker) labels halong
  have hkeep (s : System F) (l : RequestLabel) (t : System F) (h : Promised x.info s)
      (hcond : GoesOn s l) (hstep : requestStep s l = some t) : Promised x.info t :=
    (requestMoves_of_step hstep).promised h hcond.2.2
  obtain ⟨more, t, hmore, hgoes, hlast, hexhausted⟩ :=
    exists_exhausted (Promised x.info) (System.potential x.info.longest) hkeep
      (fun _ _ _ h hcond hstep =>
        (requestMoves_of_step hstep).potential_lt h.registry hcond.1) (hpromised.finish hrun)
  exact ⟨more, t, hmore, hgoes, hlast.complete hexhausted⟩

/-- Two requests whose signals have been sent and not yet delivered. -/
theorem pending_requests_completed :
    ∃ s, run requestStep (.start bothContexts) (concurrentLabels.take 6) = some s ∧
      ∃ more t, run requestStep s more = some t ∧ Along requestStep GoesOn s more ∧ t.Complete := by
  have hprefix := (Option.some_get (x := run requestStep (.start bothContexts)
    (concurrentLabels.take 6)) (by decide)).symm
  exact ⟨_, hprefix, exists_completion bothContexts (by decide) (concurrentLabels.take 6) hprefix
    (by decide)⟩

end Kerrighed.Krgcb
